import Retry.Proofs.Backoff.Exact

namespace Retry

namespace Backoff

/-- The delay that a backoff begins with. -/
def base : Backoff → Nat
  | constant delay => delay
  | linear base _ => base
  | exponential base _ => base

def grows : Backoff → Bool
  | constant _ => false
  | linear .. => true
  | exponential .. => true

/-- The backoff with `max` for its cap, if it takes one. -/
def recapped (b : Backoff) (max : Option Nat) : Backoff :=
  match b with
  | constant delay => constant delay
  | linear base _ => linear base max
  | exponential base _ => exponential base max

/-- No cap below the base. -/
def Sound (b : Backoff) : Prop := ∀ max ∈ b.cap?, b.base ≤ max

@[simp] theorem base_recapped (b : Backoff) (max : Option Nat) :
    (b.recapped max).base = b.base := by
  cases b <;> rfl

@[simp] theorem grows_recapped (b : Backoff) (max : Option Nat) :
    (b.recapped max).grows = b.grows := by
  cases b <;> rfl

@[simp] theorem recapped_recapped (b : Backoff) (max max' : Option Nat) :
    (b.recapped max).recapped max' = b.recapped max' := by
  cases b <;> rfl

theorem recapped_cap (b : Backoff) : b.recapped b.cap? = b := by
  cases b <;> rfl

theorem cap_recapped {b : Backoff} (hgrows : b.grows = true) (max : Option Nat) :
    (b.recapped max).cap? = max := by
  cases b with
  | constant delay => cases hgrows
  | linear | exponential => rfl

/-- What a cap must be to be taken, and what it does then. -/
theorem withMax_eq_ok_iff {b b' : Backoff} {max : Nat} :
    b.withMax max = .ok b' ↔
      0 < max ∧ b.grows = true ∧ b.base ≤ max ∧ b' = b.recapped (some max) := by
  unfold withMax
  by_cases hzero : max = 0
  · simp [hzero]
  · have hpos : 0 < max := Nat.pos_of_ne_zero hzero
    cases b with
    | constant delay => simp [hzero, grows]
    | linear base cap | exponential base cap =>
      by_cases hbelow : max < base
      · simp [hzero, hbelow, Backoff.base]
      · have hbase : base ≤ max := Nat.le_of_not_lt hbelow
        simp [hzero, hbelow, hpos, hbase, grows, Backoff.base, recapped, eq_comm]

theorem Sound.withMax {b b' : Backoff} {max : Nat} (h : b.withMax max = .ok b') : b'.Sound := by
  obtain ⟨-, hgrows, hbase, rfl⟩ := withMax_eq_ok_iff.mp h
  intro max' hmax'
  rw [cap_recapped hgrows] at hmax'
  obtain rfl := Option.some.inj hmax'
  rwa [base_recapped]

/-- After any number of caps a backoff has the last of them, and is else what it was. -/
theorem cap_of_caps {b b' : Backoff} {caps : List Nat} (hb : b.Sound)
    (h : caps.foldlM Backoff.withMax b = .ok b') :
    b'.Sound ∧ b'.cap? = caps.getLast?.or b.cap? ∧ b' = b.recapped b'.cap? := by
  induction caps generalizing b with
  | nil =>
    obtain rfl : b = b' := Except.ok.inj h
    exact ⟨hb, rfl, b.recapped_cap.symm⟩
  | cons max caps ih =>
    rw [List.foldlM_cons] at h
    cases hmax : b.withMax max with
    | error e =>
      rw [hmax] at h
      cases h
    | ok next =>
      rw [hmax] at h
      obtain ⟨hsound, hcap, hnext⟩ := ih (.withMax hmax) h
      obtain ⟨-, hgrows, -, rfl⟩ := withMax_eq_ok_iff.mp hmax
      have hlast : caps.getLast?.or (some max) = (max :: caps).getLast?.or b.cap? := by
        rw [List.getLast?_cons]
        cases caps.getLast? <;> rfl
      rw [cap_recapped hgrows] at hcap
      exact ⟨hsound, hcap.trans hlast, hnext.trans (recapped_recapped b _ _)⟩

theorem delay_mono (b : Backoff) {n m : Nat} (hn : 1 ≤ n) (hle : n ≤ m) :
    b.delay n ≤ b.delay m := by
  have hm : 1 ≤ m := Nat.le_trans hn hle
  cases b with
  | constant delay => rw [delay_eq _ hn, delay_eq _ hm]; exact Nat.le_refl _
  | linear base max =>
    rw [delay_linear base max hn, delay_linear base max hm]
    have hfactor : base * min n greatestFactor ≤ base * min m greatestFactor :=
      Nat.mul_le_mul_left base (by omega)
    omega
  | exponential base max =>
    rw [delay_exponential base max hn, delay_exponential base max hm]
    have hpower : base * 2 ^ (n - 1) ≤ base * 2 ^ (m - 1) :=
      Nat.mul_le_mul_left base (Nat.pow_le_pow_right (by decide) (by omega))
    omega

theorem delay_one {b : Backoff} (hb : b.Sound) : b.delay 1 = min b.base Duration.day := by
  have hlimit : min b.base (limit b.cap?) = min b.base Duration.day := by
    unfold limit
    cases hcap : b.cap? with
    | none => simp
    | some max =>
      have hbase : b.base ≤ max := hb max hcap
      simp only [Option.getD_some]
      omega
  have hone : min 1 greatestFactor = 1 := by decide
  rw [← hlimit]
  cases b with
  | constant delay => exact delay_eq _ (Nat.le_refl 1)
  | linear base max =>
    rw [delay_linear base max (Nat.le_refl 1), hone, Nat.mul_one]
    rfl
  | exponential base max =>
    rw [delay_exponential base max (Nat.le_refl 1), Nat.sub_self, Nat.pow_zero, Nat.mul_one]
    rfl

theorem delay_le_limit (b : Backoff) {n : Nat} (hn : 1 ≤ n) : b.delay n ≤ limit b.cap? := by
  rw [delay_eq b hn]
  exact Nat.min_le_right _ _

/-- Made of a base, with caps put on it one after the other, a backoff begins at its base, never
goes back with the attempts, and stays within the last cap and a day. It takes another cap exactly
if that is positive, not below the base, and not for a constant delay; and of the backoff before
nothing but the cap is changed by that. -/
theorem delays_of_caps {start b : Backoff} {base : Nat} {caps : List Nat}
    (hstart : start = constant base ∨ start = linear base none ∨ start = exponential base none)
    (hcaps : caps.foldlM withMax start = .ok b) :
    (∀ n m, 1 ≤ n → n ≤ m → min base Duration.day ≤ b.delay n ∧ b.delay n ≤ b.delay m ∧
      b.delay m ≤ Duration.day ∧ ∀ max ∈ caps.getLast?, b.delay m ≤ max) ∧
    b.delay 1 = min base Duration.day ∧
    (∀ max, (∃ b', b.withMax max = .ok b') ↔ 0 < max ∧ start ≠ constant base ∧ base ≤ max) ∧
    ∀ max b', b.withMax max = .ok b' →
      b' = start.recapped (some max) ∧ b'.base = base ∧ b'.cap? = some max := by
  have hnew : start.cap? = none ∧ start.base = base ∧
      (start.grows = true ↔ start ≠ constant base) := by
    rcases hstart with rfl | rfl | rfl <;> simp [cap?, Backoff.base, grows]
  obtain ⟨hnone, hbase, hgrows⟩ := hnew
  have hsound : start.Sound := by
    intro max hmax
    rw [hnone] at hmax
    cases hmax
  obtain ⟨hb, hlast, hkept⟩ := cap_of_caps hsound hcaps
  rw [hnone, Option.or_none] at hlast
  have hbase' : b.base = base := by rw [hkept, base_recapped, hbase]
  have hone : b.delay 1 = min base Duration.day := by rw [delay_one hb, hbase']
  refine ⟨fun n m hn hle => ⟨?_, b.delay_mono hn hle, b.delay_le_day m, ?_⟩, hone, ?_, ?_⟩
  · rw [← hone]
    exact b.delay_mono (Nat.le_refl 1) hn
  · intro max hmax
    have hle := b.delay_le_limit (Nat.le_trans hn hle)
    rw [hlast, show caps.getLast? = some max from hmax] at hle
    exact Nat.le_trans hle (Nat.min_le_left _ _)
  · intro max
    have hgrows' : b.grows = true ↔ start ≠ constant base := by
      rw [hkept, grows_recapped, hgrows]
    simp only [withMax_eq_ok_iff, hgrows', hbase', exists_and_left, exists_eq, and_true]
  · intro max b' h
    obtain ⟨-, hgrows', -, rfl⟩ := withMax_eq_ok_iff.mp h
    refine ⟨?_, by rw [base_recapped, hbase'], cap_recapped hgrows' _⟩
    rw [hkept, recapped_recapped]

/-- A cap at the base, one far above it, and one in between: each takes the place of the one before
it, the delays go up to the last, and after that a cap may come down to the base but not below. -/
theorem delays_of_caps_thrice :
    let start := exponential 5 none
    let b := exponential 5 (some 70)
    [5, 1000, 70].foldlM withMax start = .ok b ∧
      (1 ≤ 3 ∧ 3 ≤ 2 ^ 40 ∧ 5 ≤ b.delay 3 ∧ b.delay 3 ≤ b.delay (2 ^ 40) ∧
        b.delay (2 ^ 40) ≤ 70) ∧
      b.delay 1 = 5 ∧ (∃ b', b.withMax 6 = .ok b') ∧ ¬ (∃ b', b.withMax 4 = .ok b') ∧
      exponential 5 (some 6) = start.recapped (some 6) := by
  intro start b
  have hcaps : [5, 1000, 70].foldlM withMax start = .ok b := rfl
  obtain ⟨hdelays, hone, htakes, hnext⟩ := delays_of_caps (Or.inr (Or.inr rfl)) hcaps
  obtain ⟨hbegin, hmono, -, hlast⟩ := hdelays 3 (2 ^ 40) (by decide) (by decide)
  refine ⟨hcaps, ⟨by decide, by decide, hbegin, hmono, hlast 70 rfl⟩, hone, ?_, ?_, ?_⟩
  · exact (htakes 6).mpr (by decide)
  · exact mt (htakes 4).mp (by decide)
  · exact (hnext 6 _ rfl).1

end Backoff

end Retry
