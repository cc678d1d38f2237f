namespace Retry

/-- Which failed attempts count towards the limit. -/
inductive Mode where
  /-- Every failed attempt counts. -/
  | allErrors
  /-- Retryable failures are free. -/
  | permanentOnly
  /-- Only a streak of permanent failures counts; a retryable one ends the streak. -/
  | permanentStreak
  deriving DecidableEq, Repr

namespace Mode

def standard : Mode := permanentStreak

instance : Inhabited Mode := ⟨standard⟩

def text : Mode → String
  | allErrors => "AllErrors"
  | permanentOnly => "NonRetryableOnly"
  | permanentStreak => "NonRetryableWithReset"

end Mode

structure Budget where
  counted : Nat := 0
  deriving DecidableEq, Repr

namespace Budget

inductive Ruling where
  | goOn
  | exhausted
  deriving DecidableEq, Repr

/-- The counter stays at this 64-bit bound. -/
def greatest : Nat := 1 <<< 64 - 1

def count (mode : Mode) (retryable : Bool) (counted : Nat) : Nat :=
  match mode, retryable with
  | .allErrors, _ => min (counted + 1) greatest
  | _, false => min (counted + 1) greatest
  | .permanentOnly, true => counted
  | .permanentStreak, true => 0

/-- Whether a counter has used up a limit; a limit of zero is never used up. -/
def rule (limit counted : Nat) : Ruling :=
  if limit ≠ 0 ∧ limit ≤ counted then .exhausted else .goOn

/-- Record a failed attempt and rule on whether another one is allowed. -/
def record (b : Budget) (mode : Mode) (limit : Nat) (retryable : Bool) : Budget × Ruling :=
  let counted := count mode retryable b.counted
  (⟨counted⟩, rule limit counted)

theorem rule_zero (counted : Nat) : rule 0 counted = .goOn := by simp [rule]

theorem rule_eq_exhausted_iff {limit counted : Nat} :
    rule limit counted = .exhausted ↔ limit ≠ 0 ∧ limit ≤ counted := by
  unfold rule
  split <;> simp_all

end Budget

end Retry
