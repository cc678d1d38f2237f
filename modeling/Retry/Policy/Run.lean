import Retry.Journal
import Retry.Outcome
import Retry.Policy.Basic
import Retry.Task

namespace Retry

/-- Something to be tried: the work of one attempt, given the context of that attempt. -/
abbrev Operation (η ε α : Type) := Context → Task η ε α

namespace Policy

variable {η ε α : Type}

/-- Where a run stands before an attempt. -/
structure Loop where
  line : Timeline
  words : Words := []
  budget : Budget := {}
  /-- Attempts made so far. -/
  attempts : Nat := 0

inductive Status (ε α : Type) where
  | returned (outcome : Outcome ε α)
  /-- An attempt never ends. -/
  | stuck
  /-- The run wants another attempt and there is none. -/
  | starved
  deriving DecidableEq

structure Report (η ε α : Type) where
  status : Status ε α
  journal : List (Entry η ε α)
  line : Timeline
  words : Words
  /-- Operations that were not tried. -/
  untried : List (Operation η ε α)

inductive Decision where
  | stop (termination : Termination)
  | retry (budget : Budget) (delay : Nat) (words : Words)

/-- How an attempt went: its result, unless it never ends, what happened, and the time after. -/
structure Attempt (η ε α : Type) where
  result : Option (Except ε α)
  journal : List (Entry η ε α)
  line : Timeline

/-- The context of an attempt: a context of its own where attempts are timed, else the caller's. -/
def attemptContext (p : Policy ε) (ctx : Context) (l : Timeline) : Context × Timeline :=
  match p.attemptTimeout with
  | some timeout => ctx.withTimeout timeout l
  | none => (ctx, l)

/-- Give the context of an attempt back when the attempt is over. -/
def release (p : Policy ε) (own : Context) (l : Timeline) : Timeline :=
  if p.attemptTimeout.isSome then own.cancel l else l

/-- The result of watched work: being cut off is an error made of the reason. -/
def resultOf [OfReason ε] : Ending ε α → Option (Except ε α)
  | .finished result => some result
  | .cutOff reason => some (.error (OfReason.ofReason reason))
  | .stuck => none

def attempt [OfReason ε] (p : Policy ε) (ctx : Context) (number : Nat) (op : Operation η ε α)
    (l : Timeline) : Attempt η ε α :=
  let (own, l) := p.attemptContext ctx l
  let played := (op own).play own l
  let result := resultOf played.ending
  let notes := played.notes.map fun (line, what) => ⟨line, .noted what⟩
  let ended := match result with
    | some result => [⟨played.line, .ended result⟩]
    | none => []
  { result
    journal := ⟨l, .invoked number own (own.err l)⟩ :: (notes ++ ended)
    line := p.release own played.line }

/-- Ask the classifier and the budget about a failure and, if another attempt is allowed, how long
to wait for it. -/
def budgetDecision (p : Policy ε) (view : Context.View) (number : Nat) (error : ε)
    (budget : Budget) (ws : Words) : List (Event η ε α) × Decision :=
  let verdict := p.classifier view error
  let judged := .judged error view.err verdict
  match budget.record p.mode p.maxAttempts verdict.retryable with
  | (_, .exhausted) =>
    ([judged, .logged (.budgetExhausted number p.maxAttempts verdict)],
      .stop (if verdict.retryable then .exhausted else .nonRetryable))
  | (budget, .goOn) =>
    let hinted := match p.delayHint with
      | some hint => [.hinted number error (hint number error)]
      | none => []
    let (delay, used) := p.delayFor number error ws
    (judged :: hinted ++ [.logged (.retrying number verdict delay), .slept delay],
      .retry budget delay (ws.drop used))

/-- What the policy makes of attempt `number` having failed under a context that is not done: an
early return goes before the classifier and the budget. -/
def decision (p : Policy ε) (view : Context.View) (number : Nat) (error : ε) (budget : Budget)
    (ws : Words) : List (Event η ε α) × Decision :=
  match p.earlyReturn with
  | some stops =>
    if stops view error then
      ([.asked error true, .logged (.earlyReturn number)], .stop .earlyReturn)
    else
      let (events, d) := p.budgetDecision view number error budget ws
      (.asked error false :: events, d)
  | none => p.budgetDecision view number error budget ws

/-- Wait out a delay; a context whose signal comes by the end of it cuts it short. -/
def backOff (p : Policy ε) (ctx : Context) (delay : Nat) (l : Timeline) :
    Timeline × Option Reason :=
  let wake := p.sleeper.wake l.now delay
  match ctx.signalAt l with
  | some moment =>
    if moment ≤ wake then
      let l := l.advanceTo moment
      (l, ctx.signal l)
    else (l.advanceTo wake, none)
  | none => (l.advanceTo wake, none)

/-- One round of a run: an attempt and what follows it. -/
inductive Round (η ε α : Type) where
  | stop (status : Status ε α) (journal : List (Entry η ε α)) (line : Timeline) (words : Words)
  | again (journal : List (Entry η ε α)) (loop : Loop)

def abandon [OfReason ε] (reason : Reason) (attempts : Nat) : Status ε α :=
  .returned (.failure (OfReason.ofReason reason) attempts .cancelled)

def afterFailure [OfReason ε] (p : Policy ε) (ctx : Context) (number : Nat) (error : ε)
    (s : Loop) (l : Timeline) : Round η ε α :=
  match ctx.err l with
  | some reason =>
    .stop (abandon reason number) (Entry.allAt l [.logged (.doneDuringAttempt number reason)])
      l s.words
  | none =>
    match p.decision (ctx.view l) number error s.budget s.words with
    | (events, .stop termination) =>
      .stop (.returned (.failure error number termination)) (Entry.allAt l events) l s.words
    | (events, .retry budget delay words) =>
      let journal := Entry.allAt l events
      match p.backOff ctx delay l with
      | (l, some reason) =>
        .stop (abandon reason number)
          (journal ++ Entry.allAt l [.logged (.doneDuringBackoff number reason)]) l words
      | (line, none) => .again journal { line, words, budget, attempts := number }

def Round.after (journal : List (Entry η ε α)) : Round η ε α → Round η ε α
  | .stop status rest line words => .stop status (journal ++ rest) line words
  | .again rest loop => .again (journal ++ rest) loop

/-- An attempt under a context that is not done, and what follows it. -/
def round [OfReason ε] (p : Policy ε) (ctx : Context) (op : Operation η ε α) (s : Loop) :
    Round η ε α :=
  let number := s.attempts + 1
  let a := p.attempt ctx number op s.line
  match a.result with
  | none => .stop .stuck a.journal a.line s.words
  | some (.ok value) => .stop (.returned (.success value number)) a.journal a.line s.words
  | some (.error error) => (p.afterFailure ctx number error s a.line).after a.journal

def Report.after (journal : List (Entry η ε α)) (r : Report η ε α) : Report η ε α :=
  { r with journal := journal ++ r.journal }

/-- What a run leaves that is abandoned before an attempt. -/
def abandonBefore [OfReason ε] (reason : Reason) (s : Loop) (untried : List (Operation η ε α)) :
    Report η ε α where
  status := abandon reason s.attempts
  journal := Entry.allAt s.line [.logged (.doneBeforeAttempt s.attempts reason)]
  line := s.line
  words := s.words
  untried := untried

def runFrom [OfReason ε] (p : Policy ε) (ctx : Context) :
    List (Operation η ε α) → Loop → Report η ε α
  | [], s =>
    match ctx.err s.line with
    | some reason => abandonBefore reason s []
    | none => ⟨.starved, [], s.line, s.words, []⟩
  | op :: ops, s =>
    match ctx.err s.line with
    | some reason => abandonBefore reason s (op :: ops)
    | none =>
      match p.round ctx op s with
      | .stop status journal line words => ⟨status, journal, line, words, ops⟩
      | .again journal s => (p.runFrom ctx ops s).after journal

/-- Run the operations in turn under the policy and the caller's context. -/
def run [OfReason ε] (p : Policy ε) (ctx : Context) (ops : List (Operation η ε α))
    (l : Timeline) (ws : Words) : Report η ε α :=
  p.runFrom ctx ops { line := l, words := ws }

end Policy

end Retry
