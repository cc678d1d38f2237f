import Mathlib.Tactic.IntervalCases
import Retry.Proofs.Http.Date.Pieces

namespace Retry.Http.Date

open Text (written)

section Forms

variable {cs rest : List Char}

/-- The fields have as many digits as there is room for, and the names exist. -/
structure Writable (d : Date) : Prop where
  weekday : 1 ≤ d.weekday ∧ d.weekday ≤ 7
  month : 1 ≤ d.month ∧ d.month ≤ 12
  day : d.day < 100
  year : d.year < 10000
  clock : d.hour < 100 ∧ d.minute < 100 ∧ d.second < 100

theorem fixed_eq_some_iff {d : Date} :
    fixed cs = some (d, rest) ↔ d.Writable ∧ cs = Form.fixed.text d ++ rest := by
  simp only [fixed, Option.bind_eq_bind, Option.bind_eq_some_iff, Prod.exists, shortDay_eq_some_iff,
    month_eq_some_iff, literal_eq_some_iff, digits_zero_eq_some_iff Nat.zero_lt_two,
    digits_zero_eq_some_iff (Nat.zero_lt_succ 3), timeOfDay_eq_some_iff, Option.some.injEq,
    Prod.mk.injEq]
  constructor
  · rintro ⟨_, _, ⟨hweekday, rfl⟩, _, _, rfl, _, _, ⟨hday, rfl⟩, _, _, rfl, _, _, ⟨hmonth, rfl⟩,
      _, _, rfl, _, _, ⟨hyear, rfl⟩, _, _, rfl, _, _, _, _, ⟨hclock, rfl⟩, _, _, rfl, rfl, rfl⟩
    exact ⟨⟨hweekday, hmonth, hday, hyear, hclock⟩, by simp [Form.text, Date.clock]⟩
  · rintro ⟨⟨hweekday, hmonth, hday, hyear, hclock⟩, rfl⟩
    refine ⟨_, _, ⟨hweekday, ?_⟩, (), _, rfl, _, _, ⟨hday, rfl⟩, (), _, rfl, _, _, ⟨hmonth, rfl⟩,
      (), _, rfl, _, _, ⟨hyear, rfl⟩, (), _, rfl, _, _, _, _, ⟨hclock, rfl⟩, (), rest, rfl, rfl, rfl⟩
    simp [Form.text, Date.clock]

theorem fullYear_mod {year : Nat} (hfirst : 1970 ≤ year) (hlast : year < 2070) :
    fullYear (year % 100) = year := by
  unfold fullYear
  split <;> omega

theorem dashed_eq_some_iff {d : Date} : dashed cs = some (d, rest) ↔
    d.Writable ∧ (1970 ≤ d.year ∧ d.year < 2070) ∧ cs = Form.dashed.text d ++ rest := by
  simp only [dashed, Option.bind_eq_bind, Option.bind_eq_some_iff, Prod.exists, longDay_eq_some_iff,
    month_eq_some_iff, literal_eq_some_iff, digits_zero_eq_some_iff Nat.zero_lt_two,
    timeOfDay_eq_some_iff, Option.some.injEq, Prod.mk.injEq]
  constructor
  · rintro ⟨_, _, ⟨hweekday, rfl⟩, _, _, rfl, _, _, ⟨hday, rfl⟩, _, _, rfl, _, _, ⟨hmonth, rfl⟩,
      _, _, rfl, year, _, ⟨hyear, rfl⟩, _, _, rfl, _, _, _, _, ⟨hclock, rfl⟩, _, _, rfl, rfl, rfl⟩
    have hfull : (1970 ≤ fullYear year ∧ fullYear year < 2070) ∧ fullYear year % 100 = year := by
      unfold fullYear
      split <;> omega
    obtain ⟨hyears, hmod⟩ := hfull
    exact ⟨⟨hweekday, hmonth, hday, Nat.lt_trans hyears.2 (by decide), hclock⟩, hyears,
      by simp [Form.text, Date.clock, hmod]⟩
  · rintro ⟨⟨hweekday, hmonth, hday, -, hclock⟩, ⟨hfirst, hlast⟩, rfl⟩
    have hyear : d.year % 100 < 10 ^ 2 := Nat.mod_lt _ (by decide)
    refine ⟨_, _, ⟨hweekday, ?_⟩, (), _, rfl, _, _, ⟨hday, rfl⟩, (), _, rfl, _, _, ⟨hmonth, rfl⟩,
      (), _, rfl, _, _, ⟨hyear, rfl⟩, (), _, rfl, _, _, _, _, ⟨hclock, rfl⟩, (), rest, rfl, ?_, rfl⟩
    · simp [Form.text, Date.clock]
    · rw [fullYear_mod hfirst hlast]

theorem spaced_eq_some_iff {d : Date} : spaced cs = some (d, rest) ↔
    d.Writable ∧ ∃ pad, cs = (Form.spaced pad).text d ++ rest := by
  simp only [spaced, Option.bind_eq_bind, Option.bind_eq_some_iff, Prod.exists,
    shortDay_eq_some_iff, month_eq_some_iff, literal_eq_some_iff, paddedDay_eq_some_iff,
    digits_zero_eq_some_iff (Nat.zero_lt_succ 3), timeOfDay_eq_some_iff, Option.some.injEq,
    Prod.mk.injEq]
  constructor
  · rintro ⟨_, _, ⟨hweekday, rfl⟩, _, _, rfl, _, _, ⟨hmonth, rfl⟩, _, _, rfl, _, _,
      ⟨pad, hday, rfl⟩, _, _, rfl, _, _, _, _, ⟨hclock, rfl⟩, _, _, rfl, _, _, ⟨hyear, rfl⟩,
      rfl, rfl⟩
    exact ⟨⟨hweekday, hmonth, hday, hyear, hclock⟩, pad, by simp [Form.text, Date.clock]⟩
  · rintro ⟨⟨hweekday, hmonth, hday, hyear, hclock⟩, pad, rfl⟩
    refine ⟨_, _, ⟨hweekday, ?_⟩, (), _, rfl, _, _, ⟨hmonth, rfl⟩, (), _, rfl, _, _,
      ⟨pad, hday, rfl⟩, (), _, rfl, _, _, _, _, ⟨hclock, rfl⟩, (), _, rfl, _, rest, ⟨hyear, rfl⟩,
      rfl, rfl⟩
    simp [Form.text, Date.clock]

end Forms

section Marks

variable {d d' : Date}

theorem short_length {place : Nat} (h : 1 ≤ place ∧ place ≤ 7) :
    (nameAt shortDays place).length = 3 := by
  obtain ⟨hfirst, hlast⟩ := h
  interval_cases place <;> rfl

theorem long_mark {place : Nat} (h : 1 ≤ place ∧ place ≤ 7) :
    ∃ c, (nameAt longDays place)[3]? = some c ∧ c.isAlpha = true := by
  obtain ⟨hfirst, hlast⟩ := h
  interval_cases place <;> exact ⟨_, rfl, rfl⟩

/-- What follows the first three characters, if it is not a letter. -/
def mark (cs : List Char) : Option Char := cs[3]?.filter fun c => !c.isAlpha

theorem mark_text (h : 1 ≤ d.weekday ∧ d.weekday ≤ 7) (f : Form) :
    mark (f.text d) = match f with
      | .fixed => some ','
      | .dashed => none
      | .spaced _ => some ' ' := by
  have hshort := short_length h
  cases f with
  | fixed => simp [mark, Form.text, hshort]
  | dashed =>
    obtain ⟨c, hc, halpha⟩ := long_mark h
    have hlt : 3 < (nameAt longDays d.weekday).length := (List.getElem?_eq_some_iff.mp hc).1
    have htext : (Form.dashed.text d)[3]? = some c := by
      simp only [Form.text, List.append_assoc]
      rw [List.getElem?_append_left hlt, hc]
    simp [mark, htext, halpha]
  | spaced pad => simp [mark, Form.text, hshort]

end Marks

section Reading

variable {cs : List Char} {d : Date}

theorem whole_eq_some_iff {r : Reader Date} : whole r cs = some d ↔ r cs = some (d, []) := by
  unfold whole
  split
  · next heq => rw [heq, Option.some.injEq, Option.some.injEq, Prod.mk.injEq, eq_self, and_true]
  · next hrest => exact ⟨nofun, fun h => absurd h (hrest d)⟩

theorem whole_fixed_iff : whole fixed cs = some d ↔ d.Writable ∧ cs = Form.fixed.text d := by
  rw [whole_eq_some_iff, fixed_eq_some_iff, List.append_nil]

theorem whole_dashed_iff : whole dashed cs = some d ↔
    d.Writable ∧ Form.dashed.Covers d ∧ cs = Form.dashed.text d := by
  rw [whole_eq_some_iff, dashed_eq_some_iff, List.append_nil]
  rfl

theorem whole_spaced_iff : whole spaced cs = some d ↔
    d.Writable ∧ ∃ pad, cs = (Form.spaced pad).text d := by
  simp only [whole_eq_some_iff, spaced_eq_some_iff, List.append_nil]

/-- A text is no date in a form that is marked otherwise. -/
theorem whole_fixed_of_mark (h : mark cs ≠ some ',') : whole fixed cs = none := by
  refine Option.eq_none_iff_forall_ne_some.mpr fun d hd => ?_
  obtain ⟨hwritable, rfl⟩ := whole_fixed_iff.mp hd
  exact h (mark_text hwritable.weekday .fixed)

theorem whole_dashed_of_mark (h : mark cs ≠ none) : whole dashed cs = none := by
  refine Option.eq_none_iff_forall_ne_some.mpr fun d hd => ?_
  obtain ⟨hwritable, -, rfl⟩ := whole_dashed_iff.mp hd
  exact h (mark_text hwritable.weekday .dashed)

/-- What is written in a form is read as what was written, if that is in the calendar. -/
theorem read?_text (h : d.Writable) {f : Form} (hf : f.Covers d) :
    read? (f.text d) = if d.isValid then some d else none := by
  have hmark := mark_text h.weekday f
  have hsome : ((whole fixed (f.text d)).or (whole dashed (f.text d))).or
      (whole spaced (f.text d)) = some d := by
    cases f with
    | fixed => rw [whole_fixed_iff.mpr ⟨h, rfl⟩, Option.some_or, Option.some_or]
    | dashed =>
      rw [whole_fixed_of_mark (by rw [hmark]; exact nofun), Option.none_or,
        whole_dashed_iff.mpr ⟨h, hf, rfl⟩, Option.some_or]
    | spaced pad =>
      rw [whole_fixed_of_mark (by rw [hmark]; exact nofun), Option.none_or,
        whole_dashed_of_mark (by rw [hmark]; exact nofun), Option.none_or,
        whole_spaced_iff.mpr ⟨h, pad, rfl⟩]
  rw [read?, hsome, Option.filter_some]

theorem writable_of_isValid (h : d.isValid = true) : d.Writable := by
  simp only [isValid, Bool.and_eq_true, decide_eq_true_eq] at h
  obtain ⟨⟨⟨⟨hcontains, hweekday⟩, hhour⟩, hminute⟩, hsecond⟩ := h
  obtain ⟨-, hyear, hexists⟩ := Calendar.contains_iff.mp hcontains
  refine ⟨?_, hexists.month_bounds, ?_, by omega, by omega, by omega, by omega⟩
  · rw [← hweekday]
    exact ⟨Calendar.weekday_pos _, Calendar.weekday_le _⟩
  · have hdays := Calendar.monthDays_le d.year d.month
    have hday : d.day ≤ Calendar.monthDays d.year d.month := hexists.2
    omega

/-- The texts that are read as dates are the spellings of dates in the calendar. -/
theorem read?_eq_some_iff :
    read? cs = some d ↔ d.isValid = true ∧ ∃ f : Form, f.Covers d ∧ cs = f.text d := by
  constructor
  · intro h
    obtain ⟨hread, hvalid⟩ := Option.filter_eq_some_iff.mp h
    refine ⟨hvalid, ?_⟩
    rcases Option.or_eq_some_iff.mp hread with hfirst | ⟨-, hspaced⟩
    · rcases Option.or_eq_some_iff.mp hfirst with hfixed | ⟨-, hdashed⟩
      · exact ⟨.fixed, trivial, (whole_fixed_iff.mp hfixed).2⟩
      · exact ⟨.dashed, (whole_dashed_iff.mp hdashed).2⟩
    · obtain ⟨-, pad, htext⟩ := whole_spaced_iff.mp hspaced
      exact ⟨.spaced pad, trivial, htext⟩
  · rintro ⟨hvalid, f, hf, rfl⟩
    rw [read?_text (writable_of_isValid hvalid) hf, if_pos hvalid]

end Reading

end Retry.Http.Date
