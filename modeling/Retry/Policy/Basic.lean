import Retry.Backoff
import Retry.Budget
import Retry.Context.Basic
import Retry.Jitter
import Retry.Sleeper
import Retry.Verdict

namespace Retry

/-- What a predicate of a policy can see of the caller's context. -/
structure Context.View where
  now : Nat
  deadline : Option Nat
  err : Option Reason
  deriving DecidableEq, Repr

def Context.view (c : Context) (l : Timeline) : Context.View := ⟨l.now, c.deadline, c.err l⟩

structure Policy (ε : Type) where
  /-- The limit of the budget; zero is no limit. -/
  maxAttempts : Nat
  mode : Mode
  /-- How long each attempt may take, if that is bounded. -/
  attemptTimeout : Option Nat
  backoff : Backoff
  jitter : Jitter
  classifier : Context.View → ε → Verdict
  /-- Whether to stop at once with an error. -/
  earlyReturn : Option (Context.View → ε → Bool)
  /-- A delay that the error asks for, given how many attempts have run. -/
  delayHint : Option (Nat → ε → Option Nat)
  sleeper : Sleeper

inductive BuildError where
  | attemptTimeoutTooLarge (got max : Nat)
  | zeroMaxBytes
  deriving DecidableEq, Repr

def BuildError.message : BuildError → String
  | attemptTimeoutTooLarge got max =>
    "per-attempt timeout must be <= " ++ Duration.text max ++ " (got " ++ Duration.text got ++ ")"
  | zeroMaxBytes => "max_bytes must be > 0"

namespace Policy

variable {ε : Type}

/-- Settings on their way to a policy. An attempt timeout of zero is none. -/
structure Builder (ε : Type) where
  maxAttempts : Nat := 5
  mode : Mode := .standard
  attemptTimeout : Nat := 0
  backoff : Backoff := .standard
  jitter : Jitter := .none
  classifier : Context.View → ε → Verdict := fun _ _ => .permanent "unclassified"
  earlyReturn : Option (Context.View → ε → Bool) := none
  delayHint : Option (Nat → ε → Option Nat) := none
  sleeper : Sleeper := .timer

inductive Setting (ε : Type) where
  | maxAttempts (n : Nat)
  | mode (mode : Mode)
  | attemptTimeout (timeout : Nat)
  | backoff (backoff : Backoff)
  | jitter (jitter : Jitter)
  | classify (classifier : Context.View → ε → Verdict)
  | earlyReturn (stops : Context.View → ε → Bool)
  | delayHint (hint : Nat → ε → Option Nat)
  | sleeper (sleeper : Sleeper)

namespace Setting

def shouldRetry (retryable : ε → Bool) : Setting ε :=
  classify fun _ e => .ofBool (retryable e)

/-- Classify by what the error says of itself; an error without a word is permanent. -/
def byCapabilities [Capable ε] : Setting ε :=
  classify fun _ e =>
    (Capable.capabilities e).verdict?.getD (.permanent "no retry capability")

end Setting

namespace Builder

def set (b : Builder ε) : Setting ε → Builder ε
  | .maxAttempts n => { b with maxAttempts := n }
  | .mode mode => { b with mode }
  | .attemptTimeout timeout => { b with attemptTimeout := timeout }
  | .backoff backoff => { b with backoff }
  | .jitter jitter => { b with jitter }
  | .classify classifier => { b with classifier }
  | .earlyReturn stops => { b with earlyReturn := some stops }
  | .delayHint hint => { b with delayHint := some hint }
  | .sleeper sleeper => { b with sleeper }

def setAll (b : Builder ε) (settings : List (Setting ε)) : Builder ε := settings.foldl set b

/-- The policy of these settings, unless an attempt may take more than a day. -/
def build (b : Builder ε) : Except BuildError (Policy ε) :=
  if Duration.day < b.attemptTimeout then
    .error (.attemptTimeoutTooLarge b.attemptTimeout Duration.day)
  else .ok {
    maxAttempts := b.maxAttempts
    mode := b.mode
    attemptTimeout := if b.attemptTimeout = 0 then none else some b.attemptTimeout
    backoff := b.backoff
    jitter := b.jitter
    classifier := b.classifier
    earlyReturn := b.earlyReturn
    delayHint := b.delayHint
    sleeper := b.sleeper }

end Builder

def toBuilder (p : Policy ε) : Builder ε where
  maxAttempts := p.maxAttempts
  mode := p.mode
  attemptTimeout := p.attemptTimeout.getD 0
  backoff := p.backoff
  jitter := p.jitter
  classifier := p.classifier
  earlyReturn := p.earlyReturn
  delayHint := p.delayHint
  sleeper := p.sleeper

/-- The delay that an error asks for after `attempts` attempts. -/
def hint? (p : Policy ε) (attempts : Nat) (e : ε) : Option Nat :=
  p.delayHint.bind fun hint => hint attempts e

/-- The delay after `attempts` attempts ended with `e`, and how many random words it took: a
positive hint up to a day, else the backoff with jitter. -/
def delayFor (p : Policy ε) (attempts : Nat) (e : ε) (ws : Words) : Nat × Nat :=
  match p.hint? attempts e with
  | some hint =>
    if hint = 0 then p.jitter.apply (p.backoff.delay attempts) ws
    else (min hint Duration.day, 0)
  | none => p.jitter.apply (p.backoff.delay attempts) ws

private def timeoutText : Option Nat → String
  | none => "None"
  | some timeout => "Some(" ++ Duration.text timeout ++ ")"

def text (p : Policy ε) : String :=
  "RetryPolicy \x7b max_attempts: " ++ toString p.maxAttempts ++ ", mode: " ++ p.mode.text
    ++ ", attempt_timeout: " ++ timeoutText p.attemptTimeout ++ ", backoff: " ++ p.backoff.text
    ++ ", jitter: " ++ p.jitter.text ++ ", early_return: " ++ toString p.earlyReturn.isSome
    ++ ", delay_hint: " ++ toString p.delayHint.isSome ++ ", sleeper: " ++ p.sleeper.text ++ " \x7d"

end Policy

end Retry
