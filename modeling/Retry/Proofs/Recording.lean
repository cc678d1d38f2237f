import Mathlib.Algebra.Order.Ring.Nat
import Mathlib.Data.List.DropRight
import Mathlib.Data.List.Induction
import Retry.Budget

namespace Retry

namespace Budget

/-- A failure to record, with the mode and the limit that it is recorded under. -/
structure Step where
  mode : Mode
  limit : Nat
  retryable : Bool
  deriving DecidableEq, Repr

namespace Step

/-- What a step records, whatever its limit. -/
def failure (step : Step) : Mode × Bool := (step.mode, step.retryable)

def counts (step : Step) : Bool := step.mode = .allErrors || !step.retryable

def resets (step : Step) : Bool := step.mode = .permanentStreak && step.retryable

/-- A step resets the counter, or adds to it as far as that goes, or leaves it. -/
theorem count_eq (step : Step) (counted : Nat) :
    count step.mode step.retryable counted =
      if step.resets then 0 else if step.counts then min (counted + 1) greatest else counted := by
  obtain ⟨mode, limit, retryable⟩ := step
  cases mode <;> cases retryable <;> rfl

end Step

/-- The steps behind the last one that resets the counter. -/
def sinceReset (steps : List Step) : List Step := steps.rtakeWhile (! ·.resets)

/-- How many steps count of those since the last reset. -/
def tally (steps : List Step) : Nat := (sinceReset steps).countP Step.counts

/-- The budget after all the steps. -/
def after (b : Budget) (steps : List Step) : Budget :=
  steps.foldl (fun b step => (b.record step.mode step.limit step.retryable).1) b

/-- What is ruled at each step. -/
def rulings : Budget → List Step → List Ruling
  | _, [] => []
  | b, step :: steps =>
    let (b, ruling) := b.record step.mode step.limit step.retryable
    ruling :: b.rulings steps

theorem tally_concat (steps : List Step) (step : Step) :
    tally (steps ++ [step]) =
      if step.resets then 0 else if step.counts then tally steps + 1 else tally steps := by
  unfold tally sinceReset
  rw [List.rtakeWhile_concat]
  cases hresets : step.resets with
  | true => rfl
  | false => cases hcounts : step.counts <;> simp [List.countP_append, hcounts]

theorem after_concat (b : Budget) (steps : List Step) (step : Step) :
    b.after (steps ++ [step]) =
      ((b.after steps).record step.mode step.limit step.retryable).1 := by
  rw [after, List.foldl_append]
  rfl

/-- The counter is the tally of the steps, held at the greatest count. -/
theorem counted_after (steps : List Step) :
    (after {} steps).counted = min (tally steps) greatest := by
  induction steps using List.reverseRecOn with
  | nil => rfl
  | append_singleton steps step ih =>
    rw [after_concat, tally_concat]
    simp only [record, Step.count_eq, ih]
    cases step.resets with
    | true => exact (Nat.zero_min _).symm
    | false =>
      cases step.counts with
      | true =>
        simp only [Bool.false_eq_true, if_false, if_true]
        omega
      | false => rfl

theorem length_rulings (b : Budget) (steps : List Step) :
    (b.rulings steps).length = steps.length := by
  induction steps generalizing b with
  | nil => rfl
  | cons step steps ih => exact congrArg (· + 1) (ih _)

/-- Each step is ruled by its limit and the counter after it. -/
theorem getElem?_rulings (b : Budget) {steps : List Step} {i : Nat} {step : Step}
    (h : steps[i]? = some step) :
    (b.rulings steps)[i]? = some (rule step.limit (b.after (steps.take (i + 1))).counted) := by
  induction steps generalizing b i with
  | nil => cases h
  | cons first steps ih =>
    cases i with
    | zero =>
      obtain rfl : first = step := Option.some.inj h
      rfl
    | succ i => exact ih _ h

/-- The limits have no part in what is counted. -/
theorem after_congr (b : Budget) {steps steps' : List Step}
    (h : steps.map Step.failure = steps'.map Step.failure) : b.after steps = b.after steps' := by
  have hfailures : ∀ steps : List Step, b.after steps = (steps.map Step.failure).foldl
      (fun b failure => ⟨count failure.1 failure.2 b.counted⟩) b := by
    intro steps
    rw [List.foldl_map]
    rfl
  rw [hfailures steps, hfailures steps', h]

theorem take_of_getElem? {steps : List Step} {i : Nat} {step : Step} (h : steps[i]? = some step) :
    steps.take (i + 1) = steps.take i ++ [step] := by
  rw [List.take_add_one, h]
  rfl

theorem counted_le_after {steps : List Step} {i : Nat} {step : Step} (h : steps[i]? = some step)
    (hresets : step.resets = false) :
    (after {} (steps.take i)).counted ≤ (after {} (steps.take (i + 1))).counted := by
  rw [counted_after, counted_after, take_of_getElem? h, tally_concat]
  simp only [hresets, Bool.false_eq_true, if_false]
  split <;> omega

/-- Failures are recorded one after the other from a fresh budget on, however often that is used up.
The counter is how many of those behind the last reset count, but no more than the greatest word of
64 bits; so no step makes it less but a reset. A step uses up the budget exactly if its own limit is
not zero and the counter behind it has reached that; so it would with any smaller limit but zero,
whatever the limits of the others. -/
theorem counts_since_reset (steps : List Step) :
    (after {} steps).counted = min (tally steps) (2 ^ 64 - 1) ∧
    (rulings {} steps).length = steps.length ∧
    ∀ i step, steps[i]? = some step →
      ((rulings {} steps)[i]? = some .exhausted ↔
        step.limit ≠ 0 ∧ step.limit ≤ (after {} (steps.take (i + 1))).counted) ∧
      (step.resets = false →
        (after {} (steps.take i)).counted ≤ (after {} (steps.take (i + 1))).counted) ∧
      ∀ steps' step', steps'.map Step.failure = steps.map Step.failure → steps'[i]? = some step' →
        0 < step'.limit → step'.limit ≤ step.limit → (rulings {} steps)[i]? = some .exhausted →
          (rulings {} steps')[i]? = some .exhausted := by
  have hexhausted : ∀ {steps : List Step} {i step}, steps[i]? = some step →
      ((rulings {} steps)[i]? = some .exhausted ↔
        step.limit ≠ 0 ∧ step.limit ≤ (after {} (steps.take (i + 1))).counted) := by
    intro steps i step hstep
    rw [getElem?_rulings {} hstep, Option.some_inj, rule_eq_exhausted_iff]
  refine ⟨counted_after steps, length_rulings {} steps, fun i step hstep => ?_⟩
  refine ⟨hexhausted hstep, counted_le_after hstep, ?_⟩
  intro steps' step' hfailures hstep' hpos hle hspent
  have hcounted : after {} (steps'.take (i + 1)) = after {} (steps.take (i + 1)) := by
    refine after_congr {} ?_
    rw [List.map_take, List.map_take, hfailures]
  obtain ⟨-, hreached⟩ := (hexhausted hstep).mp hspent
  refine (hexhausted hstep').mpr ⟨Nat.ne_of_gt hpos, ?_⟩
  rw [hcounted]
  exact Nat.le_trans hle hreached

private theorem tally_replicate (n limit : Nat) :
    tally (List.replicate n ⟨.allErrors, limit, true⟩) = n := by
  induction n with
  | zero => rfl
  | succ n ih =>
    rw [List.replicate_succ', tally_concat, ih]
    rfl

/-- Six failures: the first uses up its limit, the fourth sets the counter back though its limit is
one, and the last is the second to count behind that, which uses up a limit of two, as it would one of
one. And of as many failures as there are words, all of which count, the counter is at the greatest
word. -/
theorem counts_since_reset_of_six :
    let steps : List Step := [⟨.allErrors, 1, true⟩, ⟨.permanentOnly, 9, true⟩,
      ⟨.permanentStreak, 3, false⟩, ⟨.permanentStreak, 1, true⟩, ⟨.permanentOnly, 0, false⟩,
      ⟨.allErrors, 2, true⟩]
    let lower : List Step := [⟨.allErrors, 0, true⟩, ⟨.permanentOnly, 9, true⟩,
      ⟨.permanentStreak, 3, false⟩, ⟨.permanentStreak, 1, true⟩, ⟨.permanentOnly, 0, false⟩,
      ⟨.allErrors, 1, true⟩]
    rulings {} steps = [.exhausted, .goOn, .goOn, .goOn, .goOn, .exhausted] ∧
      (after {} steps).counted = 2 ∧ (rulings {} lower)[5]? = some .exhausted ∧
      (after {} (List.replicate (2 ^ 64) ⟨.allErrors, 1, true⟩)).counted = 2 ^ 64 - 1 := by
  intro steps lower
  obtain ⟨hcounted, -, hsteps⟩ := counts_since_reset steps
  obtain ⟨hspent, -, hlower⟩ := hsteps 5 _ rfl
  refine ⟨by decide, hcounted.trans (by decide), ?_, ?_⟩
  · exact hlower lower _ rfl rfl (by decide) (by decide) (hspent.mpr (by decide))
  · rw [(counts_since_reset _).1, tally_replicate]
    decide

end Budget

end Retry
