import Mathlib.Data.UInt
import Mathlib.Order.Bounds.Basic
import Retry.Backoff

namespace Retry

namespace Backoff

/-- What no delay exceeds: the cap if there is one, and a day. -/
def limit (max : Option Nat) : Nat := min (max.getD Duration.day) Duration.day

theorem limit_le_day (max : Option Nat) : limit max ≤ Duration.day := Nat.min_le_right _ _

/-- The least of a delay, the cap if there is one, and a day. -/
def Capped (raw : Nat) (max : Option Nat) (d : Nat) : Prop :=
  IsLeast {x | x = raw ∨ x ∈ max ∨ x = Duration.day} d

theorem capped_min_limit (raw : Nat) (max : Option Nat) : Capped raw max (min raw (limit max)) := by
  cases max with
  | none =>
    simp only [limit, Option.getD_none, Nat.min_self]
    refine ⟨?_, ?_⟩
    · rcases Nat.le_total raw Duration.day with hle | hle
      · exact Or.inl (Nat.min_eq_left hle)
      · exact Or.inr (Or.inr (Nat.min_eq_right hle))
    · rintro x (rfl | hx | rfl)
      · exact Nat.min_le_left _ _
      · cases hx
      · exact Nat.min_le_right _ _
  | some max =>
    simp only [limit, Option.getD_some]
    refine ⟨?_, ?_⟩
    · have hleast : min raw (min max Duration.day) = raw ∨
          min raw (min max Duration.day) = max ∨
            min raw (min max Duration.day) = Duration.day := by omega
      exact hleast.imp_right (Or.imp_left fun h => congrArg some h.symm)
    · rintro x (rfl | hx | rfl)
      · exact Nat.min_le_left _ _
      · obtain rfl := Option.some.inj hx
        exact Nat.le_trans (Nat.min_le_right _ _) (Nat.min_le_left _ _)
      · exact Nat.le_trans (Nat.min_le_right _ _) (Nat.min_le_right _ _)

theorem capped_iff {raw d : Nat} {max : Option Nat} :
    Capped raw max d ↔ d = min raw (limit max) :=
  ⟨fun h => h.unique (capped_min_limit raw max), fun h => h ▸ capped_min_limit raw max⟩

theorem delay_eq (b : Backoff) {n : Nat} (hn : 1 ≤ n) :
    b.delay n = min (b.uncapped n) (limit b.cap?) := by
  have hpos : n ≠ 0 := by omega
  simp only [delay, if_neg hpos, limit]
  cases b.cap? with
  | none => simp
  | some max => exact Nat.min_assoc _ _ _

section Power

theorem ceiling_eq : ceiling = 2 ^ 128 - 1 := by decide

theorem day_le_ceiling : Duration.day ≤ ceiling := by decide

theorem pow2_eq (e : Nat) : pow2 e = min (2 ^ e) ceiling := by
  unfold pow2
  rw [ceiling_eq]
  split
  · next hlt =>
    have hle : 2 ^ e ≤ 2 ^ 127 := Nat.pow_le_pow_right (by decide) (by omega)
    rw [Nat.one_shiftLeft, Nat.min_eq_left (by omega)]
  · next hge =>
    have hle : 2 ^ 128 ≤ 2 ^ e := Nat.pow_le_pow_right (by decide) (by omega)
    rw [Nat.min_eq_right (by omega)]

/-- An exponent beyond the greatest one gives no other power. -/
theorem pow2_min (e : Nat) : pow2 (min e greatestFactor) = pow2 e := by
  have hgreatest : 128 ≤ greatestFactor := by decide
  rcases Nat.le_total e greatestFactor with hle | hle
  · rw [Nat.min_eq_left hle]
  · rw [Nat.min_eq_right hle, pow2, pow2, if_neg (by omega), if_neg (by omega)]

/-- A product that is held need not have its power held. -/
theorem mul_pow2 (base e : Nat) : min (base * pow2 e) ceiling = min (base * 2 ^ e) ceiling := by
  rw [pow2_eq]
  rcases Nat.le_total (2 ^ e) ceiling with hle | hle
  · rw [Nat.min_eq_left hle]
  · rw [Nat.min_eq_right hle]
    rcases Nat.eq_zero_or_pos base with rfl | hpos
    · simp only [Nat.zero_mul]
    · have hheld : ceiling ≤ base * ceiling := Nat.le_mul_of_pos_left _ hpos
      rw [Nat.min_eq_right hheld,
        Nat.min_eq_right (Nat.le_trans hheld (Nat.mul_le_mul_left base hle))]

theorem uncapped_exponential (base : Nat) (max : Option Nat) (n : Nat) :
    (exponential base max).uncapped n = min (base * 2 ^ (n - 1)) Duration.day := by
  have hday := day_le_ceiling
  simp only [uncapped, pow2_min, mul_pow2]
  omega

theorem delay_exponential (base : Nat) (max : Option Nat) {n : Nat} (hn : 1 ≤ n) :
    (exponential base max).delay n = min (base * 2 ^ (n - 1)) (limit max) := by
  have hcap : (exponential base max).cap? = max := rfl
  rw [delay_eq _ hn, uncapped_exponential, hcap, Nat.min_assoc,
    Nat.min_eq_right (limit_le_day max)]

/-- A product that does not fit is above every limit, as is the day that it is taken for. -/
theorem delay_linear (base : Nat) (max : Option Nat) {n : Nat} (hn : 1 ≤ n) :
    (linear base max).delay n = min (base * min n greatestFactor) (limit max) := by
  have hday : Duration.day ≤ Duration.greatest := by decide
  have hlimit := limit_le_day max
  rw [delay_eq _ hn]
  simp only [uncapped, cap?]
  split
  · rfl
  · omega

end Power

section Words

-- The steps of an exponential delay in words: a cast drops the bits that do not fit, and sums,
-- differences, shifts and products wrap around.

/-- A length of whole seconds and nanoseconds as one number of nanoseconds. -/
def nanosWord (secs : UInt64) (nanos : UInt32) : BitVec 128 :=
  secs.toBitVec.setWidth 128 * .ofNat 128 Duration.second + nanos.toBitVec.setWidth 128

/-- A power of two, all ones if it does not fit. -/
def pow2Word (e : UInt32) : BitVec 128 :=
  if e < 128 then 1#128 <<< e.toNat else .allOnes 128

/-- A product, all ones if it does not fit. -/
def mulWord (a b : BitVec 128) : BitVec 128 :=
  if a.umulOverflow b then .allOnes 128 else a * b

def dayWord : BitVec 128 := .ofNat 128 Duration.day

structure Steps where
  base : BitVec 128
  exponent : UInt32
  power : BitVec 128
  product : BitVec 128
  nanos : UInt64

/-- The steps to the delay after `attempt` attempts from a base of `secs` and `nanos`. -/
def steps (secs : UInt64) (nanos : UInt32) (attempt : UInt64) : Steps :=
  let base := nanosWord secs nanos
  let exponent := (min (attempt - 1) (.ofNat greatestFactor)).toUInt32
  let power := pow2Word exponent
  let product := mulWord base power
  let least := if product < dayWord then product else dayWord
  ⟨base, exponent, power, product, .ofBitVec (least.setWidth 64)⟩

/-- The steps from a base given as a number of nanoseconds. -/
def stepsOf (base attempt : Nat) : Steps :=
  steps (.ofNat (base / Duration.second)) (.ofNat (base % Duration.second)) (.ofNat attempt)

theorem toNat_nanosWord (secs : UInt64) (nanos : UInt32) :
    (nanosWord secs nanos).toNat = secs.toNat * Duration.second + nanos.toNat := by
  have hsecond : Duration.second = 1000000000 := rfl
  have hsecs := secs.toNat_lt
  have hnanos := nanos.toNat_lt
  rw [nanosWord, BitVec.toNat_add, BitVec.toNat_mul, BitVec.toNat_setWidth, BitVec.toNat_setWidth,
    BitVec.toNat_ofNat, UInt64.toNat_toBitVec, UInt32.toNat_toBitVec, hsecond]
  omega

theorem toNat_pow2Word (e : UInt32) : (pow2Word e).toNat = pow2 e.toNat := by
  have hlt : e < 128 ↔ e.toNat < 128 := UInt32.lt_iff_toNat_lt
  unfold pow2Word pow2
  by_cases h : e.toNat < 128
  · have hpow : 2 ^ e.toNat < 2 ^ 128 := Nat.pow_lt_pow_right (by decide) h
    have hone : (1#128).toNat = 1 := rfl
    rw [if_pos (hlt.mpr h), if_pos h, BitVec.toNat_shiftLeft, hone, Nat.one_shiftLeft,
      Nat.mod_eq_of_lt hpow]
  · rw [if_neg (mt hlt.mp h), if_neg h, ceiling_eq, BitVec.toNat_allOnes]

theorem toNat_mulWord (a b : BitVec 128) :
    (mulWord a b).toNat = min (a.toNat * b.toNat) ceiling := by
  unfold mulWord
  rw [ceiling_eq]
  by_cases h : a.umulOverflow b
  · have hover : 2 ^ 128 ≤ a.toNat * b.toNat := by simpa [BitVec.umulOverflow] using h
    rw [if_pos h, BitVec.toNat_allOnes]
    omega
  · have hunder : a.toNat * b.toNat < 2 ^ 128 := by simpa [BitVec.umulOverflow] using h
    rw [if_neg h, BitVec.toNat_mul_of_not_umulOverflow h]
    omega

variable {base n : Nat}

theorem toNat_base (hbase : base ≤ Duration.greatest) (n : Nat) :
    (stepsOf base n).base.toNat = base := by
  have hgreatest : Duration.greatest < Duration.second * 2 ^ 64 := by decide
  have hsecs : base / Duration.second < 2 ^ 64 :=
    Nat.div_lt_of_lt_mul (Nat.lt_of_le_of_lt hbase hgreatest)
  have hnanos : base % Duration.second < 2 ^ 32 :=
    Nat.lt_trans (Nat.mod_lt _ (by decide)) (by decide)
  rw [stepsOf, steps, toNat_nanosWord, UInt64.toNat_ofNat', UInt32.toNat_ofNat',
    Nat.mod_eq_of_lt hsecs, Nat.mod_eq_of_lt hnanos]
  exact Nat.div_add_mod' _ _

theorem toNat_exponent (base : Nat) (hn : 1 ≤ n) (hword : n < 2 ^ 64) :
    (stepsOf base n).exponent.toNat = min (n - 1) greatestFactor := by
  have hattempt : (UInt64.ofNat n).toNat = n := UInt64.toNat_ofNat_of_lt' hword
  have hone : (1 : UInt64) ≤ .ofNat n := by
    rw [UInt64.le_iff_toNat_le, hattempt]
    exact hn
  have hgreatest : (UInt64.ofNat greatestFactor).toNat = greatestFactor := by decide
  have hfits : greatestFactor < 2 ^ 32 := by decide
  rw [stepsOf, steps, UInt64.toNat_toUInt32, UInt64.toNat_min, UInt64.toNat_sub_of_le _ _ hone,
    hattempt, hgreatest, UInt64.toNat_one]
  omega

theorem toNat_nanos (base n : Nat) :
    (stepsOf base n).nanos.toNat = min (stepsOf base n).product.toNat Duration.day := by
  have hday : dayWord.toNat = Duration.day := by decide
  have hfits : Duration.day < 2 ^ 64 := by decide
  generalize hs : stepsOf base n = s
  have hnanos : s.nanos = .ofBitVec
      ((if s.product < dayWord then s.product else dayWord).setWidth 64) := hs ▸ rfl
  rw [hnanos, UInt64.toNat_ofBitVec, BitVec.toNat_setWidth]
  split
  · next hlt =>
    rw [BitVec.lt_def, hday] at hlt
    omega
  · next hge =>
    rw [BitVec.lt_def, hday] at hge
    omega

end Words

/-- An exponential delay is the least of the base doubled with every attempt but the first, the cap
and a day, however large these are. In words it is the same: the exponent, the power, the product
and the nanoseconds that are left each are the number that they stand for. -/
theorem exponential_exact (base : Nat) (max : Option Nat) {n : Nat} (hn : 1 ≤ n) :
    Capped (base * 2 ^ (n - 1)) max ((exponential base max).delay n) ∧
      (base ≤ Duration.greatest → n < 2 ^ 64 →
        (stepsOf base n).base.toNat = base ∧
        (stepsOf base n).exponent.toNat = min (n - 1) (2 ^ 32 - 1) ∧
        (stepsOf base n).power.toNat = min (2 ^ (n - 1)) (2 ^ 128 - 1) ∧
        (stepsOf base n).product.toNat = min (base * 2 ^ (n - 1)) (2 ^ 128 - 1) ∧
        (stepsOf base n).nanos.toNat = min (base * 2 ^ (n - 1)) Duration.day ∧
        (stepsOf base n).nanos.toNat = (exponential base max).uncapped n) := by
  have huncapped := uncapped_exponential base max n
  refine ⟨capped_iff.mpr (delay_exponential base max hn), ?_⟩
  intro hbase hword
  have hwhole := toNat_base hbase n
  have hexponent := toNat_exponent base hn hword
  have hpower : (stepsOf base n).power.toNat = pow2 (n - 1) := by
    rw [← pow2_min, ← hexponent]
    exact toNat_pow2Word _
  have hproduct : (stepsOf base n).product.toNat = min (base * 2 ^ (n - 1)) ceiling :=
    calc (stepsOf base n).product.toNat
        = min ((stepsOf base n).base.toNat * (stepsOf base n).power.toNat) ceiling :=
          toNat_mulWord _ _
      _ = min (base * pow2 (n - 1)) ceiling := by rw [hwhole, hpower]
      _ = min (base * 2 ^ (n - 1)) ceiling := mul_pow2 _ _
  have hnanos : (stepsOf base n).nanos.toNat = min (base * 2 ^ (n - 1)) Duration.day := by
    have hday := day_le_ceiling
    rw [toNat_nanos, hproduct]
    omega
  refine ⟨hwhole, hexponent, ?_, ?_, hnanos, hnanos.trans huncapped.symm⟩
  · rw [hpower, pow2_eq, ceiling_eq]
  · rw [hproduct, ceiling_eq]

/-- With a power that no longer fits, a base of nothing stays nothing, and a base of one nanosecond
is held at a day by a cap of two. -/
theorem exponential_exact_past_power :
    Capped (0 * 2 ^ (130 - 1)) (some 5) ((exponential 0 (some 5)).delay 130) ∧
      (exponential 0 (some 5)).delay 130 = 0 ∧
      (stepsOf 0 130).power.toNat = 2 ^ 128 - 1 ∧ (stepsOf 0 130).nanos.toNat = 0 ∧
      Capped (1 * 2 ^ (130 - 1)) (some (2 * Duration.day))
        ((exponential 1 (some (2 * Duration.day))).delay 130) ∧
      (exponential 1 (some (2 * Duration.day))).delay 130 = Duration.day ∧
      (stepsOf 1 130).product.toNat = 2 ^ 128 - 1 := by
  obtain ⟨hnothing, hsteps⟩ := exponential_exact 0 (some 5) (n := 130) (by decide)
  obtain ⟨-, -, hpower, -, hnanos, -⟩ := hsteps (by decide) (by decide)
  obtain ⟨hone, hsteps⟩ := exponential_exact 1 (some (2 * Duration.day)) (n := 130) (by decide)
  obtain ⟨-, -, -, hproduct, -⟩ := hsteps (by decide) (by decide)
  exact ⟨hnothing, by decide, hpower, hnanos, hone, by decide, hproduct⟩

/-- A linear delay is the least of the base times the attempts, the cap and a day, but for the
attempts being held at the greatest factor. That is seen exactly when there are more of them, the
base is not nothing, and what it comes to with the greatest factor is below the cap and a day. -/
theorem linear_exact_iff (base : Nat) (max : Option Nat) {n : Nat} (hn : 1 ≤ n) :
    Capped (base * min n (2 ^ 32 - 1)) max ((linear base max).delay n) ∧
      (Capped (base * n) max ((linear base max).delay n) ↔
        n ≤ 2 ^ 32 - 1 ∨ base = 0 ∨ limit max ≤ base * (2 ^ 32 - 1)) := by
  have hdelay : (linear base max).delay n = min (base * min n (2 ^ 32 - 1)) (limit max) :=
    delay_linear base max hn
  refine ⟨capped_iff.mpr hdelay, ?_⟩
  rw [capped_iff, hdelay]
  rcases Nat.lt_or_ge (2 ^ 32 - 1) n with hmany | hfew
  · rw [Nat.min_eq_right (Nat.le_of_lt hmany)]
    rcases Nat.eq_zero_or_pos base with rfl | hbase
    · simp only [Nat.zero_mul, true_or, or_true]
    · -- Each attempt is one more base, so the delay falls behind unless the limit hides it.
      have hmore := Nat.mul_lt_mul_of_pos_left hmany hbase
      have hhidden : min (base * (2 ^ 32 - 1)) (limit max) = min (base * n) (limit max) ↔
          limit max ≤ base * (2 ^ 32 - 1) := by
        generalize base * n = exact at *
        constructor <;> omega
      rw [hhidden]
      omega
  · simp only [Nat.min_eq_left hfew, hfew, true_or]

/-- Beyond the greatest factor, a cap at what that gives hides what is missing; without one, a
nanosecond for every attempt is no longer counted. -/
theorem linear_exact_iff_beyond :
    1 ≤ 2 ^ 32 + 7 ∧
      Capped (1 * (2 ^ 32 + 7)) (some (2 ^ 32 - 1))
        ((linear 1 (some (2 ^ 32 - 1))).delay (2 ^ 32 + 7)) ∧
      Capped (1 * (2 ^ 32 - 1)) none ((linear 1 none).delay (2 ^ 32 + 7)) ∧
      ¬ Capped (1 * (2 ^ 32 + 7)) none ((linear 1 none).delay (2 ^ 32 + 7)) := by
  have hn : 1 ≤ 2 ^ 32 + 7 := by decide
  obtain ⟨hheld, hbehind⟩ := linear_exact_iff 1 none hn
  refine ⟨hn, ?_, hheld, fun h => absurd (hbehind.mp h) (by decide)⟩
  exact (linear_exact_iff 1 (some (2 ^ 32 - 1)) hn).2.mpr (by decide)

/-- The 2 ^ 32nd attempt is waited for no longer than the one before it. -/
theorem linear_behind :
    ¬ Capped (1 * 2 ^ 32) none ((linear 1 none).delay (2 ^ 32)) ∧
      (linear 1 none).delay (2 ^ 32) = (linear 1 none).delay (2 ^ 32 - 1) := by
  rw [capped_iff]
  decide

end Backoff

end Retry
