import Retry.Proofs.Delay

namespace Retry

namespace Jitter

/-- The milliseconds of a delay that a draw goes up to: all that fit a word. -/
def millisOf (delay : Nat) : Nat := min (Duration.millis delay) greatestMillis

theorem millisOf_lt (delay : Nat) : millisOf delay < 2 ^ 64 :=
  Nat.lt_of_le_of_lt (Nat.min_le_right _ _) (by decide)

/-- The least number of milliseconds that is drawn where `ms` is the greatest. -/
def least (j : Jitter) (ms : Nat) : Nat :=
  match j with
  | none => ms
  | full => 0
  | equal => ms / 2

theorem least_le (j : Jitter) (ms : Nat) : j.least ms ≤ ms := by
  cases j with
  | none => exact Nat.le_refl _
  | full => exact Nat.zero_le _
  | equal => exact Nat.div_le_self _ _

variable {j : Jitter} {delay : Nat}

theorem apply_of_zero (hj : j ≠ none) (hzero : millisOf delay = 0) (ws : Words) :
    j.apply delay ws = (0, 0) := by
  cases j with
  | none => exact absurd rfl hj
  | full | equal => exact if_pos hzero

theorem apply_of_pos (hj : j ≠ none) (hpos : 0 < millisOf delay) (ws : Words) :
    j.apply delay ws = spread (j.least (millisOf delay)) (millisOf delay) ws := by
  have hne : millisOf delay ≠ 0 := Nat.ne_of_gt hpos
  cases j with
  | none => exact absurd rfl hj
  | full | equal => exact if_neg hne

/-- A jitter takes a delay to the whole numbers of milliseconds in `low ..= high`: to one of them
with any words, of which it takes one or two and looks at no other, and to each of them with some.
In words of the machine it is the same. -/
structure Ranges (j : Jitter) (delay low high : Nat) : Prop where
  within : ∀ ws, ∃ r, low ≤ r ∧ r ≤ high ∧ (j.apply delay ws).1 = Duration.ofMillis r
  reached : ∀ r, low ≤ r → r ≤ high → ∃ ws, (j.apply delay ws).1 = Duration.ofMillis r
  used : ∀ ws, (j.apply delay ws).2 = 1 ∨ (j.apply delay ws).2 = 2
  unused : ∀ ws ws' : Words, (∀ i < (j.apply delay ws).2, ws'.word i = ws.word i) →
    j.apply delay ws' = j.apply delay ws
  drawn : ∀ ws, j.apply delay ws =
    let d := Words.drawWord (.ofNat low) (.ofNat high) (ws.nth 0) (ws.nth 1)
    (Duration.ofMillis d.1.toNat, d.2)

theorem ranges_apply (hj : j ≠ none) (hpos : 0 < millisOf delay) :
    j.Ranges delay (j.least (millisOf delay)) (millisOf delay) := by
  have happly : ∀ ws, j.apply delay ws = _ := apply_of_pos hj hpos
  have hle := j.least_le (millisOf delay)
  have hhigh := millisOf_lt delay
  generalize j.least (millisOf delay) = low at happly hle ⊢
  generalize millisOf delay = high at happly hle hhigh ⊢
  constructor
  · intro ws
    refine ⟨(Words.draw low high ws).value, Words.le_draw hle hhigh ws,
      Words.draw_le hle hhigh ws, ?_⟩
    rw [happly, spread]
  · intro r hlow hr
    obtain ⟨ws, hvalue⟩ := Words.exists_draw hhigh hlow hr
    exact ⟨ws, by rw [happly, spread, hvalue]⟩
  · intro ws
    rw [happly]
    exact (Words.drawn_draw low hhigh ws).used
  · intro ws ws' hwords
    rw [happly] at hwords
    rw [happly, happly, spread, spread, Words.draw_congr hwords]
  · intro ws
    have hlow' : (UInt64.ofNat low).toNat = low :=
      UInt64.toNat_ofNat_of_lt' (Nat.lt_of_le_of_lt hle hhigh)
    have hhigh' : (UInt64.ofNat high).toNat = high := UInt64.toNat_ofNat_of_lt' hhigh
    have hwords : UInt64.ofNat low ≤ .ofNat high := by
      rwa [UInt64.le_iff_toNat_le, hlow', hhigh']
    obtain ⟨hvalue, hused⟩ := Words.drawWord_eq hwords ws
    rw [hlow', hhigh'] at hvalue hused
    simp only [happly, spread, hvalue, hused]

/-- Without jitter a delay is what it was, and no word is taken. Full and equal jitter make nothing
of a delay of no whole millisecond, without a word either. Of any other they make a whole number of
milliseconds that is drawn from zero or from half of its milliseconds on, up to all of them or to
what fits a word; each of these numbers comes up, and none is above the delay. -/
theorem draws_exactly (delay : Nat) :
    let ms := min (delay / 1000000) (2 ^ 64 - 1)
    (∀ ws, none.apply delay ws = (delay, 0)) ∧
    (ms = 0 → ∀ ws, full.apply delay ws = (0, 0) ∧ equal.apply delay ws = (0, 0)) ∧
    (0 < ms → full.Ranges delay 0 ms ∧ equal.Ranges delay (ms / 2) ms) ∧
    ∀ (j : Jitter) ws, (j.apply delay ws).1 ≤ delay := by
  intro ms
  refine ⟨fun ws => apply_none delay ws, fun hzero ws => ?_, fun hpos => ?_, fun j ws => ?_⟩
  · exact ⟨apply_of_zero (j := full) nofun hzero ws, apply_of_zero (j := equal) nofun hzero ws⟩
  · exact ⟨ranges_apply (j := full) nofun hpos, ranges_apply (j := equal) nofun hpos⟩
  · exact j.apply_le delay ws

/-- Three milliseconds and a half are shared out among zero to three or one to three of them; of the
longest delay there is, equal jitter asks for a second word after a first of one, which carries. -/
theorem draws_exactly_with_carry :
    full.Ranges 3500000 0 3 ∧ equal.Ranges 3500000 1 3 ∧
      (∃ ws, (equal.apply 3500000 ws).1 = Duration.ofMillis 2) ∧
      equal.Ranges Duration.greatest (2 ^ 63 - 1) (2 ^ 64 - 1) ∧
      equal.apply Duration.greatest [1, 2 ^ 64 - 1] = (Duration.ofMillis (2 ^ 63), 2) ∧
      equal.apply Duration.greatest [1, 2 ^ 63 - 7] = (Duration.ofMillis (2 ^ 63 - 1), 2) ∧
      full.apply Duration.greatest [7, 9] = (Duration.ofMillis 7, 1) ∧
      full.apply 999999 [7, 9] = (0, 0) := by
  have hthree : min (3500000 / 1000000) (2 ^ 64 - 1) = 3 := by decide
  have hall : min (Duration.greatest / 1000000) (2 ^ 64 - 1) = 2 ^ 64 - 1 := by decide
  obtain ⟨-, -, hranges, -⟩ := draws_exactly 3500000
  obtain ⟨-, -, hgreatest, -⟩ := draws_exactly Duration.greatest
  obtain ⟨-, hnothing, -, -⟩ := draws_exactly 999999
  rw [hthree] at hranges
  rw [hall] at hgreatest
  obtain ⟨hfull, hequal⟩ := hranges (by decide)
  exact ⟨hfull, hequal, hequal.reached 2 (by decide) (by decide), (hgreatest (by decide)).2,
    by decide +kernel, by decide +kernel, by decide, (hnothing (by decide) _).1⟩

theorem le_equal (delay : Nat) (ws : Words) :
    Duration.ofMillis (millisOf delay / 2) ≤ (equal.apply delay ws).1 := by
  rcases Nat.eq_zero_or_pos (millisOf delay) with hzero | hpos
  · rw [hzero]
    exact Nat.zero_le _
  · obtain ⟨r, hlow, -, hr⟩ := (ranges_apply (j := equal) nofun hpos).within ws
    rw [hr]
    exact Nat.mul_le_mul_right _ hlow

theorem exists_equal (delay : Nat) :
    ∃ ws, (equal.apply delay ws).1 = Duration.ofMillis (millisOf delay / 2) := by
  rcases Nat.eq_zero_or_pos (millisOf delay) with hzero | hpos
  · refine ⟨[], ?_⟩
    rw [apply_of_zero (j := equal) nofun hzero, hzero]
    rfl
  · exact (ranges_apply (j := equal) nofun hpos).reached _ (Nat.le_refl _) (least_le equal _)

/-- Equal jitter makes whole milliseconds, no fewer than half of those of the delay without a rest,
and that many with some words. It falls behind half of the delay by less than a millisecond, as long
as the milliseconds fit a word; and it never does exactly if the delay is an even number of
milliseconds that fits. -/
theorem equal_floor_iff (delay : Nat) :
    (∀ ws, Duration.ofMillis (min (delay / 1000000) (2 ^ 64 - 1) / 2) ≤ (equal.apply delay ws).1 ∧
      (equal.apply delay ws).1 ≤ delay) ∧
    (∃ ws, (equal.apply delay ws).1 =
      Duration.ofMillis (min (delay / 1000000) (2 ^ 64 - 1) / 2)) ∧
    (delay / 1000000 < 2 ^ 64 → ∀ ws, delay < 2 * ((equal.apply delay ws).1 + 1000000)) ∧
    ((∀ ws, delay ≤ 2 * (equal.apply delay ws).1) ↔
      delay % 2000000 = 0 ∧ delay / 1000000 < 2 ^ 64) := by
  have hmillis : min (delay / 1000000) (2 ^ 64 - 1) = millisOf delay := rfl
  have hfloor := le_equal delay
  obtain ⟨least, hleast⟩ := exists_equal delay
  simp only [Duration.ofMillis, Duration.millisecond] at hfloor hleast ⊢
  rw [hmillis]
  refine ⟨fun ws => ⟨hfloor ws, equal.apply_le delay ws⟩, ⟨least, hleast⟩, ?_, ?_, ?_⟩
  · intro hfits ws
    have h := hfloor ws
    rw [← hmillis] at h
    omega
  · -- The words with the least outcome decide.
    intro h
    have h := h least
    rw [hleast, ← hmillis] at h
    omega
  · rintro ⟨heven, hfits⟩ ws
    have h := hfloor ws
    rw [← hmillis] at h
    omega

/-- Half of a millisecond is no whole number of them, and nothing may be left of it. -/
theorem equal_below_half :
    equal.apply 1000000 [0] = (0, 1) ∧ ¬ 1000000 ≤ 2 * (equal.apply 1000000 [0]).1 := by
  decide

/-- Two milliseconds keep their half with all words; three and a half do not, but never fall behind
by a whole one. -/
theorem equal_floor_iff_of_two :
    (∀ ws, 2000000 ≤ 2 * (equal.apply 2000000 ws).1) ∧
      (∃ ws, (equal.apply 3500000 ws).1 = 1000000) ∧
      ∀ ws, 3500000 < 2 * ((equal.apply 3500000 ws).1 + 1000000) := by
  obtain ⟨-, -, -, heven⟩ := equal_floor_iff 2000000
  obtain ⟨-, hleast, hbehind, -⟩ := equal_floor_iff 3500000
  exact ⟨heven.mpr (by decide), hleast, hbehind (by decide)⟩

end Jitter

end Retry
