import Mathlib.Tactic.IntervalCases
import Retry.Proofs.Http.Date.Spelling

namespace Retry.Http.Date

open Text (written)

section Days

/-- The first number in a text. -/
def firstNumber (cs : List Char) : Nat :=
  Nat.ofDigitChars 10 ((cs.dropWhile fun c => !c.isDigit).takeWhile Char.isDigit) 0

theorem firstNumber_eq {cs front digits back : List Char} {c : Char} {n : Nat}
    (hcs : cs = front ++ (digits ++ c :: back)) (hfront : ∀ a ∈ front, a.isDigit = false)
    (hdigits : Text.Numeral digits n) (hc : c.isDigit = false) : firstNumber cs = n := by
  obtain ⟨first, others, hcons⟩ := List.exists_cons_of_ne_nil (Text.ne_nil_of_numeral hdigits)
  have hall := Text.isDigit_of_numeral hdigits
  have hdrop : (front ++ (digits ++ c :: back)).dropWhile (fun a => !a.isDigit) =
      digits ++ c :: back := by
    rw [List.dropWhile_append_of_pos (fun a ha => by rw [hfront a ha]; rfl)]
    refine Text.dropWhile_of_head fun a ha => ?_
    rw [hcons] at ha
    obtain rfl := Option.some.inj ha
    rw [hall first (hcons ▸ List.mem_cons_self)]
    rfl
  have htake : (digits ++ c :: back).takeWhile Char.isDigit = digits := by
    have hnone : (c :: back).takeWhile Char.isDigit = [] := by
      rw [List.takeWhile_cons_of_neg]
      rw [hc]
      exact Bool.false_ne_true
    rw [List.takeWhile_append_of_pos hall, hnone, List.append_nil]
  rw [firstNumber, hcs, hdrop, htake, Text.ofDigitChars_numeral hdigits]

theorem isDigit_nameAt {names : List (List Char)}
    (h : (names.all fun name => name.all fun c => !c.isDigit) = true) (place : Nat) :
    ∀ c ∈ nameAt names place, c.isDigit = false := by
  intro c hc
  unfold nameAt at hc
  cases hname : names[place - 1]? with
  | none =>
    rw [hname] at hc
    cases hc
  | some name =>
    rw [hname] at hc
    have hall := List.all_eq_true.mp h name (List.mem_of_getElem? hname)
    have hdigit := List.all_eq_true.mp hall c hc
    rwa [Bool.not_eq_true'] at hdigit

theorem exists_dayText (pad : Bool) (day : Nat) : ∃ front digits, dayText pad day = front ++ digits ∧
    (∀ c ∈ front, c.isDigit = false) ∧ Text.Numeral digits day := by
  cases pad with
  | false => exact ⟨[], written 2 day, rfl, fun _ => nofun, Text.numeral_written 2 day⟩
  | true =>
    refine ⟨_, Nat.toDigits 10 day, rfl, fun c hc => ?_, 0, rfl⟩
    rw [List.eq_of_mem_replicate hc]
    rfl

/-- The day is the first number of a date, however many digits it has. -/
theorem firstNumber_text (d : Date) (f : Form) : firstNumber (f.text d) = d.day := by
  have hshort := @isDigit_nameAt shortDays (by decide) d.weekday
  have hlong := @isDigit_nameAt longDays (by decide) d.weekday
  have hmonth := @isDigit_nameAt months (by decide) d.month
  have hday := Text.numeral_written 2 d.day
  have hblank : ∀ c ∈ [' '], c.isDigit = false := List.forall_mem_singleton.mpr rfl
  have hcomma : ∀ c ∈ [',', ' '], c.isDigit = false := List.forall_mem_cons.mpr ⟨rfl, hblank⟩
  cases f with
  | fixed =>
    have htext : Form.fixed.text d = (nameAt shortDays d.weekday ++ [',', ' ']) ++
        (written 2 d.day ++ ' ' :: (nameAt months d.month ++ ([' '] ++ (written 4 d.year ++
          ([' '] ++ (clock d ++ [' ', 'G', 'M', 'T'])))))) := by
      simp only [Form.text, List.append_assoc]
      rfl
    exact firstNumber_eq htext (List.forall_mem_append.mpr ⟨hshort, hcomma⟩) hday rfl
  | dashed =>
    have htext : Form.dashed.text d = (nameAt longDays d.weekday ++ [',', ' ']) ++
        (written 2 d.day ++ '-' :: (nameAt months d.month ++ (['-'] ++
          (written 2 (d.year % 100) ++ ([' '] ++ (clock d ++ [' ', 'G', 'M', 'T'])))))) := by
      simp only [Form.text, List.append_assoc]
      rfl
    exact firstNumber_eq htext (List.forall_mem_append.mpr ⟨hlong, hcomma⟩) hday rfl
  | spaced pad =>
    obtain ⟨front, digits, hpad, hfront, hdigits⟩ := exists_dayText pad d.day
    have htext : (Form.spaced pad).text d =
        (nameAt shortDays d.weekday ++ ([' '] ++ (nameAt months d.month ++ ([' '] ++ front)))) ++
          (digits ++ ' ' :: (clock d ++ ([' '] ++ written 4 d.year))) := by
      simp only [Form.text, hpad, List.append_assoc]
      rfl
    have hbefore := List.forall_mem_append.mpr ⟨hmonth, List.forall_mem_append.mpr ⟨hblank, hfront⟩⟩
    exact firstNumber_eq htext
      (List.forall_mem_append.mpr ⟨hshort, List.forall_mem_append.mpr ⟨hblank, hbefore⟩⟩) hdigits rfl

theorem day_of_read? {d d' : Date} {f : Form} (h : read? (f.text d) = some d') :
    d'.day = d.day := by
  obtain ⟨-, f', -, htext⟩ := read?_eq_some_iff.mp h
  rw [← firstNumber_text d' f', ← htext, firstNumber_text]

/-- A date with a day that its month does not have is not read. -/
theorem read?_text_of_day {d : Date} (h : d.Writable ∨ 100 ≤ d.day) {f : Form} (hf : f.Covers d)
    (hday : ¬ (1 ≤ d.day ∧ d.day ≤ Calendar.monthDays d.year d.month)) :
    read? (f.text d) = none := by
  rcases h with hwritable | hwide
  · have hinvalid : ¬ d.isValid = true := by
      intro hvalid
      simp only [isValid, Bool.and_eq_true, decide_eq_true_eq] at hvalid
      exact hday (Calendar.contains_iff.mp hvalid.1.1.1.1).2.2
    rw [read?_text hwritable hf, if_neg hinvalid]
  · refine Option.eq_none_iff_forall_ne_some.mpr fun d' hd' => ?_
    have hsame := day_of_read? hd'
    have hlt := (writable_of_isValid (read?_eq_some_iff.mp hd').1).day
    omega

end Days

section Ends

variable {d : Date}

theorem short_first {place : Nat} (h : 1 ≤ place ∧ place ≤ 7) :
    ∃ c, (nameAt shortDays place).head? = some c ∧ Text.isBlank c = false := by
  obtain ⟨hfirst, hlast⟩ := h
  interval_cases place <;> exact ⟨_, rfl, rfl⟩

theorem long_first {place : Nat} (h : 1 ≤ place ∧ place ≤ 7) :
    ∃ c, (nameAt longDays place).head? = some c ∧ Text.isBlank c = false := by
  obtain ⟨hfirst, hlast⟩ := h
  interval_cases place <;> exact ⟨_, rfl, rfl⟩

/-- A date begins with a letter, and ends with a letter or a digit. -/
theorem bare_text (h : 1 ≤ d.weekday ∧ d.weekday ≤ 7) (f : Form) : Text.Bare (f.text d) := by
  obtain ⟨s, hshort, hshortFirst⟩ := short_first h
  obtain ⟨l, hlong, hlongFirst⟩ := long_first h
  cases f with
  | fixed =>
    have hhead : (Form.fixed.text d).head? = some s := by
      simp only [Form.text, List.append_assoc, List.head?_append, hshort, Option.some_or]
    have hend : (Form.fixed.text d).getLast? = some 'T' := by
      rw [Form.text, List.getLast?_append]
      rfl
    exact Text.bare_of_ends hhead hshortFirst hend rfl
  | dashed =>
    have hhead : (Form.dashed.text d).head? = some l := by
      simp only [Form.text, List.append_assoc, List.head?_append, hlong, Option.some_or]
    have hend : (Form.dashed.text d).getLast? = some 'T' := by
      rw [Form.text, List.getLast?_append]
      rfl
    exact Text.bare_of_ends hhead hlongFirst hend rfl
  | spaced pad =>
    have hhead : ((Form.spaced pad).text d).head? = some s := by
      simp only [Form.text, List.append_assoc, List.head?_append, hshort, Option.some_or]
    have hyear := Text.numeral_written 4 d.year
    obtain ⟨z, hz⟩ := Option.ne_none_iff_exists'.mp
      (mt List.getLast?_eq_none_iff.mp (Text.ne_nil_of_numeral hyear))
    have hend : ((Form.spaced pad).text d).getLast? = some z := by
      rw [Form.text, List.getLast?_append, hz, Option.some_or]
    exact Text.bare_of_ends hhead hshortFirst hend
      (Text.isBlank_of_isDigit (Text.isDigit_of_numeral hyear z (List.mem_of_getLast? hz)))

end Ends

end Retry.Http.Date
