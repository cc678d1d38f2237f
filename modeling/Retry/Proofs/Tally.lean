import Mathlib.Data.List.DropRight
import Retry.Budget

namespace Retry

namespace Mode

/-- How many failures of a history count: all of them, the permanent ones, or those of the permanent
streak that the history ends with. -/
def tally : Mode → List Bool → Nat
  | allErrors, history => history.length
  | permanentOnly, history => history.count false
  | permanentStreak, history => (history.rtakeWhile (! ·)).length

theorem tally_nil (mode : Mode) : mode.tally [] = 0 := by
  cases mode <;> simp [tally]

theorem tally_concat_permanent (mode : Mode) (history : List Bool) :
    mode.tally (history ++ [false]) = mode.tally history + 1 := by
  cases mode with
  | allErrors => simp [tally]
  | permanentOnly => simp [tally]
  | permanentStreak => simp [tally]

theorem tally_concat_retryable (mode : Mode) (history : List Bool) :
    mode.tally (history ++ [true]) = match mode with
      | allErrors => history.length + 1
      | permanentOnly => permanentOnly.tally history
      | permanentStreak => 0 := by
  cases mode <;> simp [tally]

theorem tally_concat_le (mode : Mode) (history : List Bool) (retryable : Bool) :
    mode.tally (history ++ [retryable]) ≤ mode.tally history + 1 := by
  cases retryable with
  | false => rw [tally_concat_permanent]
  | true =>
    rw [tally_concat_retryable]
    cases mode with
    | allErrors => simp [tally]
    | permanentOnly => exact Nat.le_succ _
    | permanentStreak => exact Nat.zero_le _

theorem tally_concat_free {mode : Mode} (hmode : mode ≠ allErrors) (history : List Bool) :
    mode.tally (history ++ [true]) ≤ mode.tally history := by
  rw [tally_concat_retryable]
  cases mode with
  | allErrors => exact absurd rfl hmode
  | permanentOnly => exact Nat.le_refl _
  | permanentStreak => exact Nat.zero_le _

/-- A permanent streak that a history ends with is counted whole. -/
theorem length_le_tally_streak (before streak : List Bool) (h : ∀ v ∈ streak, v = false) :
    streak.length ≤ permanentStreak.tally (before ++ streak) := by
  induction streak using List.reverseRecOn with
  | nil => exact Nat.zero_le _
  | append_singleton streak v ih =>
    have hv : v = false := h v (by simp)
    have hle := ih fun w hw => h w (List.mem_append_left _ hw)
    rw [hv, ← List.append_assoc, tally_concat_permanent, List.length_append]
    exact Nat.add_le_add_right hle 1

end Mode

namespace Budget

/-- The counter of a budget is the tally of what was recorded in it. -/
def Counts (b : Budget) (mode : Mode) (history : List Bool) : Prop :=
  b.counted = min (mode.tally history) greatest

theorem counts_fresh (mode : Mode) : Counts {} mode [] := by
  simp [Counts, Mode.tally_nil]

variable {b b' : Budget} {mode : Mode} {history : List Bool} {limit : Nat} {retryable : Bool}
  {ruling : Ruling}

theorem counts_record (h : b.Counts mode history)
    (hrecord : b.record mode limit retryable = (b', ruling)) :
    b'.Counts mode (history ++ [retryable]) := by
  obtain ⟨rfl, -⟩ := Prod.mk.inj hrecord
  unfold Counts at h ⊢
  rw [h]
  cases retryable with
  | false =>
    rw [Mode.tally_concat_permanent]
    cases mode <;> simp only [count] <;> omega
  | true =>
    rw [Mode.tally_concat_retryable]
    cases mode with
    | allErrors =>
      simp only [count, Mode.tally]
      omega
    | permanentOnly => rfl
    | permanentStreak => exact (Nat.zero_min _).symm

/-- A limit that the counter can hold is used up when the tally of the history reaches it. -/
theorem exhausted_iff (h : b.Counts mode history) (hlimit : limit ≤ greatest)
    (hrecord : b.record mode limit retryable = (b', ruling)) :
    ruling = .exhausted ↔ limit ≠ 0 ∧ limit ≤ mode.tally (history ++ [retryable]) := by
  have hcount : b'.counted = min (mode.tally (history ++ [retryable])) greatest :=
    counts_record h hrecord
  have hruling : ruling = rule limit b'.counted := by
    obtain ⟨rfl, rfl⟩ := Prod.mk.inj hrecord
    rfl
  rw [hruling, rule_eq_exhausted_iff, hcount]
  constructor
  · rintro ⟨hzero, hle⟩
    exact ⟨hzero, by omega⟩
  · rintro ⟨hzero, hle⟩
    exact ⟨hzero, by omega⟩

theorem record_retryable (hmode : mode ≠ .allErrors) (hb : limit ≠ 0 → b.counted < limit) :
    (b.record mode limit true).2 = .goOn := by
  have hle : count mode true b.counted ≤ b.counted := by
    cases mode with
    | allErrors => exact absurd rfl hmode
    | permanentOnly => exact Nat.le_refl _
    | permanentStreak => exact Nat.zero_le _
  have hfree : ¬ (limit ≠ 0 ∧ limit ≤ count mode true b.counted) := by
    rintro ⟨hzero, hlimit⟩
    have := hb hzero
    omega
  simp only [record, rule, hfree, if_false]

theorem counted_lt_of_goOn (h : b.record mode limit retryable = (b', .goOn)) (hlimit : limit ≠ 0) :
    b'.counted < limit := by
  simp only [record, rule, Prod.mk.injEq] at h
  obtain ⟨rfl, hrule⟩ := h
  by_contra hle
  rw [if_pos ⟨hlimit, Nat.le_of_not_lt hle⟩] at hrule
  cases hrule

end Budget

end Retry
