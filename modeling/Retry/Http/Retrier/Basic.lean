import Retry.Fault.Judged
import Retry.Http.Decoding
import Retry.Http.RetryAfter
import Retry.Policy.Basic

namespace Retry.Http

structure Retrier where
  policy : Policy HttpFault
  /-- The most bytes that are kept of a body or unpacked from it. -/
  maxBytes : Nat
  /-- Whether a code that no list holds is worth a retry. -/
  unlisted : Status → Bool

namespace Retrier

structure Builder where
  /-- The settings that every policy has. -/
  base : Policy.Builder HttpFault := {}
  maxBytes : Nat := standardMaxBytes
  classifier : Context.View → HttpFault → Verdict := fun _ f => f.verdict
  earlyReturn : Option (Context.View → HttpFault → Bool) := none
  unlisted : Status → Bool := fun _ => false

inductive Setting where
  /-- Classifier, early return and hint set this way give way to those of the retrier. -/
  | policy (setting : Policy.Setting HttpFault)
  | maxBytes (n : Nat)
  | classify (classifier : Context.View → HttpFault → Verdict)
  | earlyReturn (stops : Context.View → HttpFault → Bool)
  | unlisted (retryable : Status → Bool)

namespace Builder

def set (b : Builder) : Setting → Builder
  | .policy setting => { b with base := b.base.set setting }
  | .maxBytes n => { b with maxBytes := n }
  | .classify classifier => { b with classifier }
  | .earlyReturn stops => { b with earlyReturn := some stops }
  | .unlisted retryable => { b with unlisted := retryable }

def setAll (b : Builder) (settings : List Setting) : Builder := settings.foldl set b

/-- Without an early return of its own, a retrier stops at terminal faults, and only about those
does it ask the classifier for that. -/
def consults (b : Builder) (f : HttpFault) : Bool := b.earlyReturn.isNone && f.isTerminal

def stops (b : Builder) (view : Context.View) (f : HttpFault) : Bool :=
  match b.earlyReturn with
  | some stops => stops view f
  | none => f.isTerminal && !(b.classifier view f).retryable

/-- The retrier of these settings, unless bodies may have no bytes or the policy cannot be built. A
delay that a server asks for after attempt `n` counts from what the clock shows then, `clock n`. -/
def build (b : Builder) (clock : Nat → WallTime) : Except BuildError Retrier :=
  if b.maxBytes = 0 then .error .zeroMaxBytes
  else
    let base := b.base.setAll [.classify b.classifier, .earlyReturn b.stops,
      .delayHint fun n f => f.retryAfter? (clock n)]
    match base.build with
    | .ok policy => .ok ⟨policy, b.maxBytes, b.unlisted⟩
    | .error e => .error e

end Builder

def text (r : Retrier) : String :=
  "HttpRetrier \x7b policy: " ++ r.policy.text ++ ", max_bytes: " ++ toString r.maxBytes
    ++ ", .. \x7d"

end Retrier

end Retry.Http
