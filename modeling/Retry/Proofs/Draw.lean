import Mathlib.Data.UInt
import Retry.Jitter

namespace Retry

namespace Words

theorem word_lt (ws : Words) (i : Nat) : ws.word i < 2 ^ 64 := (ws[i]?.getD 0).toNat_lt

/-- The first two words as one number of 128 bits. -/
def pair (ws : Words) : Nat := ws.word 0 * 2 ^ 64 + ws.word 1

theorem pair_lt (ws : Words) : ws.pair < 2 ^ 128 := by
  have hfirst := ws.word_lt 0
  have hsecond := ws.word_lt 1
  unfold pair
  omega

/-- The share of `size` is that of the first word, with what the second adds to it carried over. -/
theorem pair_mul_div (ws : Words) (size : Nat) : ws.pair * size / 2 ^ 128 =
    (ws.word 0 * size + ws.word 1 * size / 2 ^ 64) / 2 ^ 64 := by
  have hsplit : ws.pair * size = 2 ^ 64 * (ws.word 0 * size) + ws.word 1 * size := by
    rw [pair, Nat.add_mul, Nat.mul_comm (ws.word 0), Nat.mul_assoc]
  rw [show 2 ^ 128 = 2 ^ 64 * 2 ^ 64 from rfl, ← Nat.div_div_eq_div_mul, hsplit,
    Nat.mul_add_div (by decide)]

theorem pair_mul_div_lt (ws : Words) {size : Nat} (hsize : 0 < size) :
    ws.pair * size / 2 ^ 128 < size :=
  Nat.div_lt_of_lt_mul (Nat.mul_lt_mul_of_pos_right ws.pair_lt hsize)

theorem word_mul_div_lt (ws : Words) (i : Nat) {size : Nat} (hsize : 0 < size) :
    ws.word i * size / 2 ^ 64 < size :=
  Nat.div_lt_of_lt_mul (Nat.mul_lt_mul_of_pos_right (ws.word_lt i) hsize)

/-- How a number can be drawn from a range of `size` numbers: the word itself if they are all numbers
of 64 bits, else by one word or, where its low half leaves a carry open, by two. -/
inductive Drawn (low size : Nat) (ws : Words) : Draw → Prop where
  | all (hsize : size = 2 ^ 64) : Drawn low size ws ⟨ws.word 0, 1⟩
  | one (hsize : size < 2 ^ 64) (hrest : ws.word 0 * size % 2 ^ 64 ≤ 2 ^ 64 - size) :
      Drawn low size ws ⟨low + ws.word 0 * size / 2 ^ 64, 1⟩
  | two (hsize : size < 2 ^ 64) (hrest : 2 ^ 64 - size < ws.word 0 * size % 2 ^ 64) :
      Drawn low size ws ⟨low + ws.word 0 * size / 2 ^ 64 +
        if 2 ^ 64 ≤ ws.word 0 * size % 2 ^ 64 + ws.word 1 * size / 2 ^ 64 then 1 else 0, 2⟩

theorem Drawn.used {low size : Nat} {ws : Words} {d : Draw} (h : Drawn low size ws d) :
    d.used = 1 ∨ d.used = 2 := by
  cases h with
  | all | one => exact Or.inl rfl
  | two => exact Or.inr rfl

variable {low high : Nat}

theorem drawn_draw (low : Nat) (hhigh : high < 2 ^ 64) (ws : Words) :
    Drawn low (high - low + 1) ws (draw low high ws) := by
  have hword : 1 <<< 64 = 2 ^ 64 := by decide
  simp only [draw, hword, Nat.shiftRight_eq_div_pow]
  by_cases hall : high - low + 1 = 2 ^ 64
  · rw [if_pos (by rw [hall, Nat.mod_self])]
    exact .all hall
  · have hsize : high - low + 1 < 2 ^ 64 := by omega
    rw [Nat.mod_eq_of_lt hsize, if_neg (Nat.succ_ne_zero _)]
    split
    · next hrest => exact .two hsize hrest
    · next hrest => exact .one hsize (Nat.le_of_not_lt hrest)

theorem value_draw (hle : low ≤ high) (hhigh : high < 2 ^ 64) (ws : Words) :
    (draw low high ws).value = low + ws.pair * (high - low + 1) / 2 ^ 128 := by
  have hpos : 0 < high - low + 1 := Nat.succ_pos _
  have hrange : low + (high - low + 1) ≤ 2 ^ 64 := by omega
  have hdrawn := drawn_draw low hhigh ws
  rw [pair_mul_div]
  generalize draw low high ws = d at hdrawn
  generalize high - low + 1 = size at *
  have hfirst := ws.word_lt 0
  -- What the second word adds is below the size: alone it carries nothing.
  have hnext := ws.word_mul_div_lt 1 hpos
  cases hdrawn with
  | all hsize =>
    obtain rfl : low = 0 := by omega
    subst hsize
    simp only
    omega
  | one hsize hrest =>
    generalize ws.word 0 * size = product at *
    simp only
    omega
  | two hsize hrest =>
    generalize ws.word 0 * size = product at *
    simp only
    split <;> omega

theorem le_draw (hle : low ≤ high) (hhigh : high < 2 ^ 64) (ws : Words) :
    low ≤ (draw low high ws).value := by
  rw [value_draw hle hhigh]
  exact Nat.le_add_right _ _

theorem draw_le (hle : low ≤ high) (hhigh : high < 2 ^ 64) (ws : Words) :
    (draw low high ws).value ≤ high := by
  have hshare := ws.pair_mul_div_lt (Nat.zero_lt_succ (high - low))
  rw [value_draw hle hhigh]
  simp only [Nat.succ_eq_add_one] at hshare
  omega

/-- The words that a draw does not take make no difference to it. -/
theorem draw_congr {ws ws' : Words}
    (h : ∀ i < (draw low high ws).used, ws'.word i = ws.word i) :
    draw low high ws' = draw low high ws := by
  have hfirst : ws'.word 0 = ws.word 0 := by
    refine h 0 ?_
    unfold draw
    dsimp only
    split
    · exact Nat.zero_lt_one
    · split
      · exact Nat.zero_lt_two
      · exact Nat.zero_lt_one
  unfold draw at h ⊢
  dsimp only at h ⊢
  rw [hfirst]
  split
  · rfl
  · next hall =>
    rw [if_neg hall] at h
    split
    · next hrest =>
      rw [if_pos hrest] at h
      rw [h 1 Nat.one_lt_two]
    · rfl

/-- The least first word of those that share out `k` of `size`. -/
def wordFor (size k : Nat) : Nat := (k * 2 ^ 64 + (size - 1)) / size

theorem wordFor_mul_div {size k : Nat} (hsize : size ≤ 2 ^ 64) (hk : k < size) :
    wordFor size k < 2 ^ 64 ∧ wordFor size k * size / 2 ^ 64 = k := by
  have hpos : 0 < size := Nat.zero_lt_of_lt hk
  have hbelow : wordFor size k * size ≤ k * 2 ^ 64 + (size - 1) := Nat.div_mul_le_self _ _
  have habove : k * 2 ^ 64 + (size - 1) < (wordFor size k + 1) * size :=
    Nat.lt_mul_of_div_lt (Nat.lt_succ_self _) hpos
  rw [Nat.succ_mul] at habove
  constructor
  · have hlast : (k + 1) * 2 ^ 64 ≤ size * 2 ^ 64 := Nat.mul_le_mul_right _ hk
    have hproduct : wordFor size k * size < 2 ^ 64 * size := by omega
    exact Nat.lt_of_mul_lt_mul_right hproduct
  · refine Nat.div_eq_of_lt_le ?_ ?_ <;> omega

/-- Every number of a range is drawn, already by a first word. -/
theorem exists_draw (hhigh : high < 2 ^ 64) {r : Nat} (hlow : low ≤ r) (hr : r ≤ high) :
    ∃ ws, (draw low high ws).value = r := by
  have hsize : high - low + 1 ≤ 2 ^ 64 := by omega
  have hk : r - low < high - low + 1 := by omega
  obtain ⟨hword, hshare⟩ := wordFor_mul_div hsize hk
  refine ⟨[.ofNat (wordFor (high - low + 1) (r - low))], ?_⟩
  have hfirst : word [.ofNat (wordFor (high - low + 1) (r - low))] 0 =
      wordFor (high - low + 1) (r - low) := UInt64.toNat_ofNat_of_lt' hword
  have hsecond : word [.ofNat (wordFor (high - low + 1) (r - low))] 1 = 0 := rfl
  rw [value_draw (Nat.le_trans hlow hr) hhigh, pair_mul_div, hfirst, hsecond, Nat.zero_mul,
    Nat.zero_div, Nat.add_zero, hshare]
  omega

section Machine

def wide (a b : UInt64) : BitVec 128 := a.toBitVec.setWidth 128 * b.toBitVec.setWidth 128

def upper (p : BitVec 128) : UInt64 := .ofBitVec ((p >>> 64).setWidth 64)

def lower (p : BitVec 128) : UInt64 := .ofBitVec (p.setWidth 64)

def carryOf (a b : UInt64) : UInt64 := if a.toBitVec.uaddOverflow b.toBitVec then 1 else 0

def nth (ws : Words) (i : Nat) : UInt64 := ws[i]?.getD 0

/-- A number in `low ..= high` and how many of the two words that took. -/
def drawWord (low high first second : UInt64) : UInt64 × Nat :=
  let size := high - low + 1
  if size = 0 then (first, 1)
  else
    let product := wide first size
    if 0 - size < lower product then
      let next := upper (wide second size)
      (low + (upper product + carryOf (lower product) next), 2)
    else (low + upper product, 1)

theorem toNat_wide (a b : UInt64) : (wide a b).toNat = a.toNat * b.toNat := by
  have ha := a.toNat_lt
  have hb := b.toNat_lt
  have hfits : a.toNat * b.toNat < 2 ^ 64 * 2 ^ 64 := Nat.mul_lt_mul'' ha hb
  rw [wide, BitVec.toNat_mul, BitVec.toNat_setWidth, BitVec.toNat_setWidth, UInt64.toNat_toBitVec,
    UInt64.toNat_toBitVec, Nat.mod_eq_of_lt (a := a.toNat) (by omega),
    Nat.mod_eq_of_lt (a := b.toNat) (by omega), Nat.mod_eq_of_lt (by omega)]

theorem toNat_lower (p : BitVec 128) : (lower p).toNat = p.toNat % 2 ^ 64 := by
  rw [lower, UInt64.toNat_ofBitVec, BitVec.toNat_setWidth]

theorem toNat_upper (p : BitVec 128) : (upper p).toNat = p.toNat / 2 ^ 64 := by
  have hp := p.isLt
  rw [upper, UInt64.toNat_ofBitVec, BitVec.toNat_setWidth, BitVec.toNat_ushiftRight,
    Nat.shiftRight_eq_div_pow]
  omega

theorem toNat_carryOf (a b : UInt64) :
    (carryOf a b).toNat = if 2 ^ 64 ≤ a.toNat + b.toNat then 1 else 0 := by
  unfold carryOf
  simp only [BitVec.uaddOverflow, UInt64.toNat_toBitVec, decide_eq_true_eq, ge_iff_le]
  split <;> rfl

/-- The test by which a second word is asked for, in a range whose size is a word. -/
theorem zero_sub_lt_lower_iff {size : UInt64} (hpos : 0 < size.toNat) (first : UInt64) :
    0 - size < lower (wide first size) ↔
      2 ^ 64 - size.toNat < first.toNat * size.toNat % 2 ^ 64 := by
  have hlt := size.toNat_lt
  rw [UInt64.lt_iff_toNat_lt, UInt64.toNat_sub, UInt64.toNat_zero, toNat_lower, toNat_wide,
    Nat.add_zero, Nat.mod_eq_of_lt (a := 2 ^ 64 - size.toNat) (by omega)]

/-- In words a draw is the same: nothing wraps around but the size of a range of all numbers. -/
theorem drawWord_eq {low high : UInt64} (hle : low ≤ high) (ws : Words) :
    (drawWord low high (ws.nth 0) (ws.nth 1)).1.toNat = (draw low.toNat high.toNat ws).value ∧
      (drawWord low high (ws.nth 0) (ws.nth 1)).2 = (draw low.toNat high.toNat ws).used := by
  have hhigh := high.toNat_lt
  have hle' : low.toNat ≤ high.toNat := hle
  have hpos : 0 < high.toNat - low.toNat + 1 := Nat.succ_pos _
  have hsize : (high - low + 1).toNat = (high.toNat - low.toNat + 1) % 2 ^ 64 := by
    rw [UInt64.toNat_add, UInt64.toNat_sub_of_le _ _ hle, UInt64.toNat_one]
  have hfirst : (ws.nth 0).toNat = ws.word 0 := rfl
  have hsecond : (ws.nth 1).toNat = ws.word 1 := rfl
  have hrange := draw_le hle' hhigh ws
  have hdrawn := drawn_draw low.toNat hhigh ws
  generalize draw low.toNat high.toNat ws = d at hdrawn hrange ⊢
  unfold drawWord
  dsimp only
  generalize high - low + 1 = size at hsize ⊢
  generalize high.toNat - low.toNat + 1 = range at hsize hpos hdrawn
  cases hdrawn with
  | all hall =>
    have hzero : size = 0 := by
      rw [← UInt64.toNat_inj, hsize, hall]
      rfl
    rw [if_pos hzero]
    exact ⟨hfirst, rfl⟩
  | one hone hrest =>
    rw [Nat.mod_eq_of_lt hone] at hsize
    subst hsize
    have hzero : size ≠ 0 := by
      rintro rfl
      exact absurd hpos (by decide)
    have hasks := zero_sub_lt_lower_iff hpos (ws.nth 0)
    rw [if_neg hzero, if_neg (mt hasks.mp (Nat.not_lt.mpr hrest))]
    refine ⟨?_, rfl⟩
    simp only [UInt64.toNat_add, toNat_upper, toNat_wide, hfirst] at hrange ⊢
    exact Nat.mod_eq_of_lt (Nat.lt_of_le_of_lt hrange hhigh)
  | two htwo hrest =>
    rw [Nat.mod_eq_of_lt htwo] at hsize
    subst hsize
    have hzero : size ≠ 0 := by
      rintro rfl
      exact absurd hpos (by decide)
    have hasks := zero_sub_lt_lower_iff hpos (ws.nth 0)
    rw [if_neg hzero, if_pos (hasks.mpr hrest)]
    refine ⟨?_, rfl⟩
    simp only [UInt64.toNat_add, toNat_upper, toNat_lower, toNat_wide, toNat_carryOf, hfirst,
      hsecond] at hrange ⊢
    rw [Nat.add_mod_mod, ← Nat.add_assoc]
    exact Nat.mod_eq_of_lt (Nat.lt_of_le_of_lt hrange hhigh)

end Machine

end Words

end Retry
