namespace Retry

inductive Termination where
  /-- The budget ran out on an error worth a retry. -/
  | exhausted
  /-- The budget ran out on a permanent error. -/
  | nonRetryable
  /-- The early-return predicate stopped the run. -/
  | earlyReturn
  /-- The caller's context was done. -/
  | cancelled
  deriving DecidableEq, Repr

inductive Outcome (ε α : Type) where
  | success (value : α) (attempts : Nat)
  | failure (error : ε) (attempts : Nat) (termination : Termination)
  deriving DecidableEq, Repr

namespace Outcome

variable {ε α : Type}

def isSuccess : Outcome ε α → Bool
  | success .. => true
  | failure .. => false

def attempts : Outcome ε α → Nat
  | success _ n => n
  | failure _ n _ => n

def termination? : Outcome ε α → Option Termination
  | success .. => none
  | failure _ _ t => some t

def result : Outcome ε α → Except ε α
  | success v _ => .ok v
  | failure e _ _ => .error e

end Outcome

end Retry
