import Retry.Context.Basic
import Retry.Verdict

namespace Retry

/-- A line of the log: how loud it is, what it says, and its named values. -/
structure LogLine where
  level : String
  message : String
  fields : List (String × String)
  deriving DecidableEq, Repr

inductive Log where
  | doneBeforeAttempt (attempts : Nat) (reason : Reason)
  | doneDuringAttempt (attempts : Nat) (reason : Reason)
  | doneDuringBackoff (attempts : Nat) (reason : Reason)
  | earlyReturn (attempts : Nat)
  | budgetExhausted (attempts limit : Nat) (verdict : Verdict)
  | retrying (attempt : Nat) (verdict : Verdict) (delay : Nat)
  deriving DecidableEq, Repr

namespace Log

private def done (message : String) (attempts : Nat) (reason : Reason) : LogLine :=
  ⟨"DEBUG", message, [("attempts", toString attempts), ("reason", reason.message)]⟩

def line : Log → LogLine
  | doneBeforeAttempt attempts reason => done "context done before attempt" attempts reason
  | doneDuringAttempt attempts reason => done "context done during attempt" attempts reason
  | doneDuringBackoff attempts reason => done "context done during backoff" attempts reason
  | earlyReturn attempts => ⟨"DEBUG", "early return", [("attempts", toString attempts)]⟩
  | budgetExhausted attempts limit verdict =>
    ⟨"WARN", "retry budget exhausted", [("attempts", toString attempts),
      ("max_attempts", toString limit), ("reason", verdict.text)]⟩
  | retrying attempt verdict delay =>
    ⟨"DEBUG", "retrying", [("attempt", toString attempt), ("reason", verdict.text),
      ("delay", Duration.text delay)]⟩

end Log

/-- An event of a run over an operation that leaves notes `η`. -/
inductive Event (η ε α : Type) where
  /-- The operation is invoked under a context, done already or not. -/
  | invoked (attempt : Nat) (ctx : Context) (err : Option Reason)
  | noted (what : η)
  /-- The attempt has ended; an attempt that was cut off ends with an error. -/
  | ended (result : Except ε α)
  /-- The early-return predicate was asked. -/
  | asked (error : ε) (stops : Bool)
  /-- The classifier was asked, with the caller's context done already or not. -/
  | judged (error : ε) (err : Option Reason) (verdict : Verdict)
  /-- The delay hint was asked. -/
  | hinted (attempts : Nat) (error : ε) (hint : Option Nat)
  /-- A sleep was requested. -/
  | slept (delay : Nat)
  | logged (log : Log)

structure Entry (η ε α : Type) where
  line : Timeline
  event : Event η ε α

namespace Entry

variable {η ε α : Type}

def moment (e : Entry η ε α) : Nat := e.line.now

def allAt (l : Timeline) (events : List (Event η ε α)) : List (Entry η ε α) := events.map (⟨l, ·⟩)

end Entry

end Retry
