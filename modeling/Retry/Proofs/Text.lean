import Mathlib.Algebra.Order.Ring.Nat
import Mathlib.Data.List.Induction
import Mathlib.Data.List.TakeWhile
import Retry.Text.Bytes

namespace Retry.Text

section Blanks

/-- A core, and nothing but blanks around it. -/
def Padded (cs core : List Char) : Prop :=
  ∃ before after, cs = before ++ core ++ after ∧ (∀ c ∈ before, isBlank c = true) ∧
    ∀ c ∈ after, isBlank c = true

/-- A core begins and ends with something else than a blank, or is empty. -/
def Bare (core : List Char) : Prop :=
  (∀ c ∈ core.head?, isBlank c = false) ∧ ∀ c ∈ core.getLast?, isBlank c = false

theorem bare_of_ends {core : List Char} {first last : Char} (hfirst : core.head? = some first)
    (hfront : isBlank first = false) (hlast : core.getLast? = some last)
    (hback : isBlank last = false) : Bare core := by
  refine ⟨fun c hc => ?_, fun c hc => ?_⟩
  · rw [hfirst] at hc
    rwa [← Option.some.inj hc]
  · rw [hlast] at hc
    rwa [← Option.some.inj hc]

theorem dropWhile_of_head {p : Char → Bool} {cs : List Char} (h : ∀ c ∈ cs.head?, p c = false) :
    cs.dropWhile p = cs := by
  cases cs with
  | nil => rfl
  | cons c cs =>
    rw [List.dropWhile_cons_of_neg]
    rw [h c rfl]
    exact Bool.false_ne_true

theorem trim_of_padded {cs core : List Char} (h : Padded cs core) (hbare : Bare core) :
    trim cs = core := by
  obtain ⟨before, after, rfl, hbefore, hafter⟩ := h
  obtain ⟨hfirst, hlast⟩ := hbare
  have hback : ∀ c ∈ after.reverse, isBlank c = true := fun c hc => hafter c (List.mem_reverse.mp hc)
  rw [trim, List.append_assoc, List.dropWhile_append_of_pos hbefore]
  cases core with
  | nil =>
    have hnone : after.dropWhile isBlank = [] := List.dropWhile_eq_nil_iff.mpr hafter
    rw [List.nil_append, hnone]
    rfl
  | cons c core =>
    have hrest : (c :: core ++ after).dropWhile isBlank = c :: core ++ after :=
      dropWhile_of_head fun a ha => hfirst a ha
    have hcore : (c :: core).reverse.dropWhile isBlank = (c :: core).reverse :=
      dropWhile_of_head fun a ha => hlast a (by rwa [List.head?_reverse] at ha)
    rw [hrest, List.reverse_append, List.dropWhile_append_of_pos hback, hcore, List.reverse_reverse]

theorem padded_trim (cs : List Char) : Padded cs (trim cs) := by
  have hfront := List.takeWhile_append_dropWhile (p := isBlank) (l := cs)
  have hback := List.takeWhile_append_dropWhile (p := isBlank) (l := (cs.dropWhile isBlank).reverse)
  refine ⟨cs.takeWhile isBlank, ((cs.dropWhile isBlank).reverse.takeWhile isBlank).reverse, ?_,
    fun c hc => List.mem_takeWhile_imp hc,
    fun c hc => List.mem_takeWhile_imp (List.mem_reverse.mp hc)⟩
  rw [trim, List.append_assoc, ← List.reverse_append, hback, List.reverse_reverse, hfront]

theorem of_mem_head?_dropWhile {p : Char → Bool} {cs : List Char} {c : Char}
    (h : c ∈ (cs.dropWhile p).head?) : p c = false := by
  have hnot := List.head?_dropWhile_not p cs
  rwa [Option.mem_def.mp h] at hnot

theorem bare_trim (cs : List Char) : Bare (trim cs) := by
  refine ⟨fun c hc => ?_, fun c hc => ?_⟩
  · -- what is left of the back is at the front still
    have hfront : trim cs <+: cs.dropWhile isBlank := by
      rw [← List.reverse_reverse (cs.dropWhile isBlank)]
      exact List.reverse_prefix.mpr (List.dropWhile_suffix isBlank)
    obtain ⟨rest, hrest⟩ := hfront
    refine @of_mem_head?_dropWhile isBlank cs c ?_
    rw [← hrest, List.head?_append, Option.mem_def.mp hc]
    rfl
  · rw [trim, List.getLast?_reverse] at hc
    exact of_mem_head?_dropWhile hc

/-- A core in another case, but for blanks around it. -/
def Spelt (cs : List Char) (word : String) : Prop :=
  ∃ core, Padded cs core ∧ Bare core ∧ lower core = word.toList

theorem spelt_iff {cs : List Char} {word : String} : Spelt cs word ↔ lower (trim cs) = word.toList := by
  constructor
  · rintro ⟨core, hpadded, hbare, hlower⟩
    rw [trim_of_padded hpadded hbare, hlower]
  · exact fun h => ⟨trim cs, padded_trim cs, bare_trim cs, h⟩

instance (cs : List Char) (word : String) : Decidable (Spelt cs word) :=
  decidable_of_iff _ spelt_iff.symm

theorem Spelt.eq {cs : List Char} {word word' : String} (h : Spelt cs word) (h' : Spelt cs word') :
    word = word' :=
  String.toList_inj.mp ((spelt_iff.mp h).symm.trans (spelt_iff.mp h'))

end Blanks

section Visible

variable {value : Bytes}

theorem isVisible_iff {b : UInt8} :
    Bytes.isVisible b = true ↔ (0x20 ≤ b ∧ b ≤ 0x7e) ∨ b = 0x09 := by
  simp only [Bytes.isVisible, Bool.or_eq_true, Bool.and_eq_true, decide_eq_true_eq]

theorem visible?_eq_some_iff {b : Bytes} {text : String} : Bytes.visible? b = some text ↔
    (∀ x ∈ b, Bytes.isVisible x = true) ∧ text = String.ofList (b.map Bytes.charOf) := by
  unfold Bytes.visible?
  by_cases hall : b.all Bytes.isVisible = true
  · rw [if_pos hall, Option.some.injEq, eq_comm]
    exact ⟨fun h => ⟨List.all_eq_true.mp hall, h⟩, fun h => h.2⟩
  · rw [if_neg hall]
    exact ⟨nofun, fun h => absurd (List.all_eq_true.mpr h.1) hall⟩

/-- All of it is printable ASCII or tabs. -/
def Readable (value : Bytes) : Prop := ∀ b ∈ value, (0x20 ≤ b ∧ b ≤ 0x7e) ∨ b = 0x09

-- byte by byte of the value: the bytes are a finite type too, and a search of the type would do
instance (value : Bytes) : Decidable (Readable value) := List.decidableBAll _ _

theorem readable_iff : Readable value ↔ ∀ b ∈ value, Bytes.isVisible b = true := by
  simp only [Readable, isVisible_iff]

theorem visible?_of_readable (h : Readable value) :
    Bytes.visible? value = some (String.ofList (value.map Bytes.charOf)) :=
  visible?_eq_some_iff.mpr ⟨readable_iff.mp h, rfl⟩

theorem visible?_of_not_readable (h : ¬ Readable value) : Bytes.visible? value = none :=
  Option.eq_none_iff_forall_ne_some.mpr fun _ htext =>
    h (readable_iff.mpr (visible?_eq_some_iff.mp htext).1)

def isPrintable (c : Char) : Bool := (0x20 ≤ c.toNat && c.toNat ≤ 0x7e) || c = '\t'

/-- Whether a byte can be read does not depend on its case. -/
theorem isVisible_eq (b : UInt8) : Bytes.isVisible b = isPrintable (Bytes.charOf b).toLower := by
  have hall : ∀ n < 256, Bytes.isVisible (.ofNat n) =
      isPrintable (Bytes.charOf (.ofNat n)).toLower := by decide +kernel
  have hb := hall b.toNat b.toNat_lt
  rwa [UInt8.ofNat_toNat] at hb

theorem isPrintable_of_isBlank {c : Char} (h : isBlank c = true) : isPrintable c.toLower = true := by
  simp only [isBlank, Bool.or_eq_true, decide_eq_true_eq] at h
  rcases h with rfl | rfl <;> decide

/-- A value can be read if the word that it is can be. -/
theorem readable_iff_of_spelt {word : String} (h : Spelt (value.map Bytes.charOf) word) :
    Readable value ↔ word.toList.all isPrintable = true := by
  obtain ⟨core, ⟨before, after, hvalue, hbefore, hafter⟩, -, hlower⟩ := h
  have hall : Readable value ↔ ∀ c ∈ value.map Bytes.charOf, isPrintable c.toLower = true := by
    simp only [readable_iff, isVisible_eq, List.forall_mem_map]
  rw [hall, hvalue, ← hlower, lower, List.all_eq_true, List.forall_mem_map, List.forall_mem_append,
    List.forall_mem_append]
  exact ⟨fun h => h.1.2, fun h => ⟨⟨fun c hc => isPrintable_of_isBlank (hbefore c hc), h⟩,
    fun c hc => isPrintable_of_isBlank (hafter c hc)⟩⟩

theorem bare_of_lower {core : List Char} (h : ∀ c ∈ lower core, isBlank c = false) : Bare core := by
  have hplain : ∀ c ∈ core, isBlank c = false := by
    intro c hc
    refine Bool.eq_false_iff.mpr fun hblank => ?_
    have hlower := h c.toLower (List.mem_map_of_mem hc)
    simp only [isBlank, Bool.or_eq_true, decide_eq_true_eq] at hblank
    rcases hblank with rfl | rfl <;> cases hlower
  exact ⟨fun c hc => hplain c (List.mem_of_mem_head? hc),
    fun c hc => hplain c (List.mem_of_getLast? hc)⟩

end Visible

section Decimal

/-- A number in so many places at least, zeros before it. -/
def written (width n : Nat) : List Char := (Nat.toDigits 10 n).leftpad width '0'

/-- The digits of a number, after any number of zeros. -/
def Numeral (cs : List Char) (n : Nat) : Prop :=
  ∃ zeros, cs = List.replicate zeros '0' ++ Nat.toDigits 10 n

theorem exists_digitChar {c : Char} (h : c.isDigit = true) :
    ∃ k, k < 10 ∧ c = k.digitChar ∧ c.toNat - 48 = k := by
  have hle : 48 ≤ c.toNat ∧ c.toNat ≤ 57 := by
    simp only [Char.isDigit, Bool.and_eq_true, decide_eq_true_eq] at h
    exact ⟨UInt32.le_iff_toNat_le.mp h.1, UInt32.le_iff_toNat_le.mp h.2⟩
  refine ⟨c.toNat - 48, by omega, ?_, rfl⟩
  apply Char.toNat_inj.mp
  rw [Nat.toNat_digitChar_of_lt_ten (by omega)]
  omega

/-- The last digit comes off the end, if it is not the only one asked for. -/
theorem written_succ {width n k : Nat} (hwidth : 0 < width) (hk : k < 10) :
    written (width + 1) (10 * n + k) = written width n ++ [k.digitChar] := by
  have hlast : Nat.toDigits 10 k = [k.digitChar] := Nat.toDigits_of_lt_base hk
  rcases Nat.eq_zero_or_pos n with rfl | hn
  · obtain ⟨width, rfl⟩ := Nat.exists_eq_succ_of_ne_zero (Nat.ne_of_gt hwidth)
    have hzero : Nat.toDigits 10 0 = ['0'] := rfl
    simp [written, List.leftpad, hlast, hzero, ← List.replicate_succ']
  · simp only [written, List.leftpad, ← Nat.toDigits_append_toDigits (by decide) hn hk, hlast,
      List.length_append, List.length_singleton, Nat.add_sub_add_right, List.append_assoc]

theorem written_ofDigitChars {cs : List Char} (hne : cs ≠ []) (h : ∀ c ∈ cs, c.isDigit = true) :
    written cs.length (Nat.ofDigitChars 10 cs 0) = cs := by
  induction cs using List.reverseRecOn with
  | nil => exact absurd rfl hne
  | append_singleton cs c ih =>
    obtain ⟨k, hk, rfl, -⟩ := exists_digitChar (h c (by simp))
    have hall : ∀ c ∈ cs, c.isDigit = true := fun c hc => h c (by simp [hc])
    have hvalue : Nat.ofDigitChars 10 (cs ++ [k.digitChar]) 0 =
        10 * Nat.ofDigitChars 10 cs 0 + k := by
      rw [Nat.ofDigitChars_append, Nat.ofDigitChars_cons_digitChar_of_lt_ten hk,
        Nat.ofDigitChars_nil]
    rw [hvalue, List.length_append, List.length_singleton]
    by_cases hnil : cs = []
    · rw [hnil]
      simp [written, List.leftpad, Nat.toDigits_of_lt_base hk]
    · rw [written_succ (List.length_pos_iff.mpr hnil) hk, ih hnil hall]

theorem ofDigitChars_numeral {cs : List Char} {n : Nat} (h : Numeral cs n) :
    Nat.ofDigitChars 10 cs 0 = n := by
  obtain ⟨zeros, rfl⟩ := h
  rw [Nat.ofDigitChars_append, Nat.ofDigitChars_replicate_zero, Nat.mul_zero,
    Nat.ofDigitChars_ten_toDigits]

theorem isDigit_of_numeral {cs : List Char} {n : Nat} (h : Numeral cs n) :
    ∀ c ∈ cs, c.isDigit = true := by
  obtain ⟨zeros, rfl⟩ := h
  intro c hc
  rcases List.mem_append.mp hc with hzero | hdigit
  · obtain rfl := List.eq_of_mem_replicate hzero
    rfl
  · exact Nat.isDigit_of_mem_toDigits (by decide) (by decide) hdigit

theorem isBlank_of_isDigit {c : Char} (h : c.isDigit = true) : isBlank c = false := by
  refine Bool.eq_false_iff.mpr fun hblank => ?_
  simp only [isBlank, Bool.or_eq_true, decide_eq_true_eq] at hblank
  rcases hblank with rfl | rfl <;> cases h

theorem ne_nil_of_numeral {cs : List Char} {n : Nat} (h : Numeral cs n) : cs ≠ [] := by
  obtain ⟨zeros, rfl⟩ := h
  exact List.append_ne_nil_of_right_ne_nil _ (List.length_pos_iff.mp Nat.length_toDigits_pos)

theorem numeral_written (width n : Nat) : Numeral (written width n) n := ⟨_, rfl⟩

/-- The numerals are the texts of one digit or more. -/
theorem numeral_iff {cs : List Char} {n : Nat} : Numeral cs n ↔
    cs ≠ [] ∧ (∀ c ∈ cs, c.isDigit = true) ∧ Nat.ofDigitChars 10 cs 0 = n := by
  constructor
  · exact fun h => ⟨ne_nil_of_numeral h, isDigit_of_numeral h, ofDigitChars_numeral h⟩
  · rintro ⟨hne, hall, rfl⟩
    have hnumeral := numeral_written cs.length (Nat.ofDigitChars 10 cs 0)
    rwa [written_ofDigitChars hne hall] at hnumeral

theorem length_written {width n : Nat} (hwidth : 0 < width) (hn : n < 10 ^ width) :
    (written width n).length = width := by
  have hle := (Nat.length_toDigits_le_iff (by decide) hwidth).mpr hn
  rw [written, List.length_leftpad, Nat.max_eq_left hle]

end Decimal

end Retry.Text
