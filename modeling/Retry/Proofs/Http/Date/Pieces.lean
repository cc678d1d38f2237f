import Mathlib.Tactic.IntervalCases
import Retry.Http.Date
import Retry.Proofs.Calendar
import Retry.Proofs.Text

namespace Retry.Http.Date

open Text (written)

/-- The three forms, the last with a space or a zero before a day of one digit. -/
inductive Form where
  | fixed
  | dashed
  | spaced (pad : Bool)
  deriving DecidableEq, Repr

/-- The name at a place counted from one. -/
def nameAt (names : List (List Char)) (place : Nat) : List Char := names[place - 1]?.getD []

/-- A day in two places, after a space or a zero if it has one digit. -/
def dayText (pad : Bool) (day : Nat) : List Char :=
  (Nat.toDigits 10 day).leftpad 2 (if pad then ' ' else '0')

/-- The time of day. -/
def clock (d : Date) : List Char :=
  written 2 d.hour ++ ':' :: (written 2 d.minute ++ ':' :: written 2 d.second)

namespace Form

def text (d : Date) : Form → List Char
  | fixed =>
    nameAt shortDays d.weekday ++ [',', ' '] ++ written 2 d.day ++ [' '] ++ nameAt months d.month ++
      [' '] ++ written 4 d.year ++ [' '] ++ clock d ++ [' ', 'G', 'M', 'T']
  | dashed =>
    nameAt longDays d.weekday ++ [',', ' '] ++ written 2 d.day ++ ['-'] ++ nameAt months d.month ++
      ['-'] ++ written 2 (d.year % 100) ++ [' '] ++ clock d ++ [' ', 'G', 'M', 'T']
  | spaced pad =>
    nameAt shortDays d.weekday ++ [' '] ++ nameAt months d.month ++ [' '] ++
      dayText pad d.day ++ [' '] ++ clock d ++ [' '] ++ written 4 d.year

/-- The dates that a form can tell: the one with dashes has no room for the century. -/
def Covers (d : Date) : Form → Prop
  | dashed => 1970 ≤ d.year ∧ d.year < 2070
  | _ => True

end Form

section Pieces

variable {cs rest : List Char}

theorem literal_eq_some_iff {s : List Char} {u : Unit} :
    literal s cs = some (u, rest) ↔ cs = s ++ rest := by
  unfold literal
  by_cases hfront : s.isPrefixOf cs = true
  · obtain ⟨more, rfl⟩ := List.isPrefixOf_iff_prefix.mp hfront
    simp only [hfront, if_true, List.drop_left, Option.some.injEq, Prod.mk.injEq, true_and,
      List.append_cancel_left_eq]
  · rw [if_neg hfront]
    refine ⟨nofun, ?_⟩
    rintro rfl
    exact absurd (List.isPrefixOf_iff_prefix.mpr (List.prefix_append s rest)) hfront

theorem digit?_eq_some_iff {c : Char} {k : Nat} :
    digit? c = some k ↔ c.isDigit = true ∧ c.toNat - 48 = k := by
  unfold digit?
  split
  · next h => simp only [Option.some.injEq, h, true_and]
  · next h => exact ⟨nofun, fun hk => absurd hk.1 h⟩

theorem digits_eq_some_iff {value count n : Nat} : digits value count cs = some (n, rest) ↔
    ∃ t, t.length = count ∧ (∀ c ∈ t, c.isDigit = true) ∧ Nat.ofDigitChars 10 t value = n ∧
      cs = t ++ rest := by
  induction count generalizing value cs with
  | zero =>
    simp only [digits, Option.some.injEq, Prod.mk.injEq, List.length_eq_zero_iff]
    constructor
    · rintro ⟨rfl, rfl⟩
      exact ⟨[], rfl, by simp, rfl, rfl⟩
    · rintro ⟨t, rfl, -, hvalue, rfl⟩
      exact ⟨hvalue, rfl⟩
  | succ count ih =>
    cases cs with
    | nil =>
      refine ⟨nofun, ?_⟩
      rintro ⟨t, hlength, -, -, hnil⟩
      obtain ⟨rfl, -⟩ := List.nil_eq_append_iff.mp hnil
      cases hlength
    | cons c cs =>
      simp only [digits, Option.bind_eq_some_iff, digit?_eq_some_iff, ih]
      constructor
      · rintro ⟨k, ⟨hdigit, rfl⟩, t, hlength, hall, hvalue, rfl⟩
        refine ⟨c :: t, by simp [hlength], by simpa [hdigit] using hall, ?_, rfl⟩
        rw [Nat.ofDigitChars_cons, Nat.mul_comm]
        exact hvalue
      · rintro ⟨t, hlength, hall, hvalue, happend⟩
        cases t with
        | nil => cases hlength
        | cons a t =>
          obtain ⟨rfl, rfl⟩ := List.cons.inj happend
          refine ⟨c.toNat - 48, ⟨hall c List.mem_cons_self, rfl⟩, t, Nat.succ.inj hlength,
            fun a ha => hall a (List.mem_cons_of_mem _ ha), ?_, rfl⟩
          rw [Nat.ofDigitChars_cons, Nat.mul_comm] at hvalue
          exact hvalue

/-- So many digits are the writing of a number that fits them. -/
theorem digits_zero_eq_some_iff {count n : Nat} (hcount : 0 < count) :
    digits 0 count cs = some (n, rest) ↔ n < 10 ^ count ∧ cs = written count n ++ rest := by
  rw [digits_eq_some_iff]
  constructor
  · rintro ⟨t, rfl, hall, rfl, rfl⟩
    have hne : t ≠ [] := List.length_pos_iff.mp hcount
    have hwritten := Text.written_ofDigitChars hne hall
    refine ⟨?_, by rw [hwritten]⟩
    refine (Nat.length_toDigits_le_iff (by decide) hcount).mp ?_
    have hlength := congrArg List.length hwritten
    rw [written, List.length_leftpad] at hlength
    omega
  · rintro ⟨hn, rfl⟩
    have hnumeral := Text.numeral_written count n
    exact ⟨_, Text.length_written hcount hn, Text.isDigit_of_numeral hnumeral,
      Text.ofDigitChars_numeral hnumeral, rfl⟩

theorem named_eq_some {names : List (List Char)} {first place : Nat}
    (h : named names first cs = some (place, rest)) :
    first ≤ place ∧ ∃ name, names[place - first]? = some name ∧ cs = name ++ rest := by
  induction names generalizing first with
  | nil => cases h
  | cons name names ih =>
    rw [named] at h
    split at h
    · next hfront =>
      obtain ⟨more, rfl⟩ := List.isPrefixOf_iff_prefix.mp hfront
      rw [List.drop_left] at h
      obtain ⟨rfl, rfl⟩ := Prod.mk.inj (Option.some.inj h)
      exact ⟨Nat.le_refl _, name, by simp, rfl⟩
    · obtain ⟨hfirst, other, hother, hcs⟩ := ih h
      refine ⟨by omega, other, ?_, hcs⟩
      have hplace : place - first = (place - (first + 1)) + 1 := by omega
      rw [hplace]
      exact hother

/-- No name is how another one begins. -/
def Apart (names : List (List Char)) : Prop := names.Pairwise fun a b => ¬ a <+: b ∧ ¬ b <+: a

theorem named_append {names : List (List Char)} (hapart : Apart names) {k : Nat} {name : List Char}
    (hname : names[k]? = some name) (first : Nat) (rest : List Char) :
    named names first (name ++ rest) = some (first + k, rest) := by
  induction names generalizing first k with
  | nil => cases hname
  | cons other names ih =>
    obtain ⟨hother, hothers⟩ := List.pairwise_cons.mp hapart
    rw [named]
    cases k with
    | zero =>
      obtain rfl := Option.some.inj hname
      rw [if_pos (List.isPrefixOf_iff_prefix.mpr (List.prefix_append _ _)), List.drop_left]
      rfl
    | succ k =>
      have hmem : name ∈ names := List.mem_of_getElem? hname
      have hnot : ¬ other.isPrefixOf (name ++ rest) = true := by
        intro hfront
        rcases List.prefix_or_prefix_of_prefix (List.isPrefixOf_iff_prefix.mp hfront)
          (List.prefix_append name rest) with h | h
        · exact (hother name hmem).1 h
        · exact (hother name hmem).2 h
      rw [if_neg hnot, ih hothers hname, Nat.add_right_comm]
      rfl

/-- A name is taken off if it is one of the names, and its place is given. -/
theorem named_one_eq_some_iff {names : List (List Char)} (hapart : Apart names) {place : Nat} :
    named names 1 cs = some (place, rest) ↔
      (1 ≤ place ∧ place ≤ names.length) ∧ cs = nameAt names place ++ rest := by
  constructor
  · intro h
    obtain ⟨hfirst, name, hname, rfl⟩ := named_eq_some h
    obtain ⟨hlt, -⟩ := List.getElem?_eq_some_iff.mp hname
    refine ⟨⟨hfirst, by omega⟩, ?_⟩
    rw [nameAt, hname, Option.getD_some]
  · rintro ⟨⟨hfirst, hlast⟩, rfl⟩
    have hname : names[place - 1]? = some (nameAt names place) := by
      rw [nameAt, List.getElem?_eq_getElem (by omega), Option.getD_some]
    rw [named_append hapart hname, Nat.add_sub_cancel' hfirst]

theorem shortDay_eq_some_iff {place : Nat} : named shortDays 1 cs = some (place, rest) ↔
    (1 ≤ place ∧ place ≤ 7) ∧ cs = nameAt shortDays place ++ rest :=
  named_one_eq_some_iff (by unfold Apart; decide)

theorem longDay_eq_some_iff {place : Nat} : named longDays 1 cs = some (place, rest) ↔
    (1 ≤ place ∧ place ≤ 7) ∧ cs = nameAt longDays place ++ rest :=
  named_one_eq_some_iff (by unfold Apart; decide)

theorem month_eq_some_iff {place : Nat} : named months 1 cs = some (place, rest) ↔
    (1 ≤ place ∧ place ≤ 12) ∧ cs = nameAt months place ++ rest :=
  named_one_eq_some_iff (by unfold Apart; decide)

theorem timeOfDay_eq_some_iff {hour minute second : Nat} :
    timeOfDay cs = some ((hour, minute, second), rest) ↔
      (hour < 100 ∧ minute < 100 ∧ second < 100) ∧ cs = written 2 hour ++
        ([':'] ++ (written 2 minute ++ ([':'] ++ (written 2 second ++ rest)))) := by
  simp only [timeOfDay, Option.bind_eq_bind, Option.bind_eq_some_iff, Prod.exists,
    literal_eq_some_iff, digits_zero_eq_some_iff Nat.zero_lt_two, Option.some.injEq, Prod.mk.injEq]
  constructor
  · rintro ⟨_, _, ⟨hhour, rfl⟩, _, _, rfl, _, _, ⟨hminute, rfl⟩, _, _, rfl, _, _, ⟨hsecond, rfl⟩,
      ⟨rfl, rfl, rfl⟩, rfl⟩
    exact ⟨⟨hhour, hminute, hsecond⟩, rfl⟩
  · rintro ⟨⟨hhour, hminute, hsecond⟩, rfl⟩
    exact ⟨_, _, ⟨hhour, rfl⟩, (), _, rfl, _, _, ⟨hminute, rfl⟩, (), _, rfl, _, _, ⟨hsecond, rfl⟩,
      ⟨rfl, rfl, rfl⟩, rfl⟩

theorem dayText_of_lt {day : Nat} (hday : day < 10) :
    dayText true day = ' ' :: written 1 day := by
  simp [dayText, written, List.leftpad, Nat.toDigits_of_lt_base hday]

theorem dayText_of_le {day : Nat} (hday : 10 ≤ day) (pad : Bool) :
    dayText pad day = written 2 day := by
  have hlength : ¬ (Nat.toDigits 10 day).length ≤ 1 := by
    rw [Nat.length_toDigits_le_iff (by decide) (by decide)]
    omega
  have hnone : 2 - (Nat.toDigits 10 day).length = 0 := by omega
  simp only [dayText, written, List.leftpad, hnone, List.replicate_zero]

theorem paddedDay_of_digits {day : Nat} (h : digits 0 2 cs = some (day, rest)) :
    paddedDay cs = some (day, rest) := by
  obtain ⟨t, hlength, hall, -, rfl⟩ := digits_eq_some_iff.mp h
  cases t with
  | nil => cases hlength
  | cons c t =>
    have hnot : c ≠ ' ' := by
      rintro rfl
      cases hall ' ' List.mem_cons_self
    rw [List.cons_append] at h ⊢
    unfold paddedDay
    split
    · next hblank => exact absurd (List.cons.inj hblank).1 hnot
    · exact h

theorem paddedDay_eq_some_iff {day : Nat} : paddedDay cs = some (day, rest) ↔
    ∃ pad, day < 100 ∧ cs = dayText pad day ++ rest := by
  constructor
  · intro h
    unfold paddedDay at h
    split at h
    · next cs =>
      obtain ⟨hday, rfl⟩ := (digits_zero_eq_some_iff (by decide)).mp h
      have hlt : day < 10 := hday
      exact ⟨true, by omega, by rw [dayText_of_lt hlt]; rfl⟩
    · obtain ⟨hday, rfl⟩ := (digits_zero_eq_some_iff (by decide)).mp h
      exact ⟨false, hday, rfl⟩
  · rintro ⟨pad, hday, rfl⟩
    have htwo : digits 0 2 (written 2 day ++ rest) = some (day, rest) :=
      (digits_zero_eq_some_iff (by decide)).mpr ⟨hday, rfl⟩
    rcases Nat.lt_or_ge day 10 with hlt | hge
    · cases pad with
      | false => exact paddedDay_of_digits htwo
      | true =>
        rw [dayText_of_lt hlt]
        exact (digits_zero_eq_some_iff (by decide)).mpr ⟨hlt, rfl⟩
    · rw [dayText_of_le hge]
      exact paddedDay_of_digits htwo

end Pieces

end Retry.Http.Date
