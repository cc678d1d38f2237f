import Mathlib.Algebra.Order.Ring.Nat
import Mathlib.Order.Monotone.Basic
import Mathlib.Tactic.IntervalCases
import Retry.Calendar

namespace Retry.Calendar

structure Day where
  year : Nat
  month : Nat
  day : Nat
  deriving DecidableEq, Repr

namespace Day

/-- The month has such a day, and the year such a month. -/
def Exists (d : Day) : Prop := 1 ≤ d.day ∧ d.day ≤ monthDays d.year d.month

/-- The day after: the first of the next month after the last of a month, and the first of the next
year after the last of a year. -/
def next (d : Day) : Day :=
  if d.day < monthDays d.year d.month then ⟨d.year, d.month, d.day + 1⟩
  else if d.month < 12 then ⟨d.year, d.month + 1, 1⟩
  else ⟨d.year + 1, 1, 1⟩

/-- The day that is reached so many days after 1 January 1970. -/
def ofNumber : Nat → Day
  | 0 => ⟨1970, 1, 1⟩
  | n + 1 => (ofNumber n).next

def number (d : Day) : Nat := dayNumber d.year d.month d.day

end Day

/-- Sunday, the seventh, is followed by Monday. -/
def weekdayAfter (weekday : Nat) : Nat := if weekday = 7 then 1 else weekday + 1

/-- The weekday reached so many days after a Thursday. -/
def countedWeekday : Nat → Nat
  | 0 => 4
  | n + 1 => weekdayAfter (countedWeekday n)

theorem countedWeekday_eq (n : Nat) : countedWeekday n = weekday n := by
  induction n with
  | zero => rfl
  | succ n ih =>
    rw [countedWeekday, ih]
    unfold weekdayAfter weekday
    split <;> omega

theorem weekday_pos (n : Nat) : 1 ≤ weekday n := by
  unfold weekday
  omega

theorem weekday_le (n : Nat) : weekday n ≤ 7 := by
  unfold weekday
  omega

section Years

/-- One more of the years before the next one is a multiple of `k`, if this year is. -/
theorem multiples_succ {k : Nat} (hk : 0 < k) (year : Nat) :
    (year + 1 + (k - 1)) / k = (year + (k - 1)) / k + if year % k = 0 then 1 else 0 := by
  have hsum : year + 1 + (k - 1) = year + k := by omega
  have hdiv := Nat.div_add_mod year k
  have hmod := Nat.mod_lt year hk
  rw [hsum, Nat.add_div_right _ hk]
  split
  · next h =>
    have hbefore : (year + (k - 1)) / k = year / k := by
      refine Nat.div_eq_of_lt_le ?_ ?_
      · rw [Nat.mul_comm]
        omega
      · rw [Nat.succ_mul, Nat.mul_comm]
        omega
    rw [hbefore]
  · next h =>
    have hbefore : (year + (k - 1)) / k = year / k + 1 := by
      refine Nat.div_eq_of_lt_le ?_ ?_
      · rw [Nat.succ_mul, Nat.mul_comm]
        omega
      · rw [Nat.succ_mul, Nat.succ_mul, Nat.mul_comm (year / k)]
        omega
    rw [hbefore]

/-- A leap year has a day more than the others. -/
theorem daysBeforeYear_succ (year : Nat) :
    daysBeforeYear (year + 1) = daysBeforeYear year + if isLeap year then 366 else 365 := by
  have hfourth : year % 100 = 0 → year % 4 = 0 := by omega
  have hcentury : year % 400 = 0 → year % 100 = 0 := by omega
  have hfewer : (year + 99) / 100 ≤ (year + 3) / 4 := by omega
  simp only [daysBeforeYear, isLeap, @multiples_succ 4 (by decide) year,
    @multiples_succ 100 (by decide) year, @multiples_succ 400 (by decide) year]
  generalize (year + 3) / 4 = a, (year + 99) / 100 = b, (year + 399) / 400 = c at hfewer
  -- A multiple of 400 is one of 100, and that one of 4, which leaves four kinds of years.
  by_cases h4 : year % 4 = 0
  · by_cases h100 : year % 100 = 0
    · by_cases h400 : year % 400 = 0
      · simp only [h4, h100, h400, if_true, decide_true, Bool.or_true]
        omega
      · simp only [h4, h100, h400, if_true, if_false, decide_true, decide_false, ne_eq,
          not_true_eq_false, Bool.and_false, Bool.or_self, Bool.false_eq_true]
        omega
    · simp only [h4, h100, mt hcentury h100, if_true, if_false, decide_true, decide_false, ne_eq,
        not_false_eq_true, Bool.and_self, Bool.or_false]
      omega
  · simp only [h4, mt hfourth h4, mt hcentury (mt hfourth h4), if_false, decide_true, decide_false,
      ne_eq, not_false_eq_true, Bool.and_true, Bool.or_self, Bool.false_eq_true]
    omega

theorem monthDays_le (year month : Nat) : monthDays year month ≤ 31 := by
  unfold monthDays
  split
  case h_12 => split <;> decide
  all_goals decide

theorem daysBeforeYear_mono : Monotone daysBeforeYear :=
  monotone_nat_of_le_succ fun year => by
    rw [daysBeforeYear_succ]
    exact Nat.le_add_right _ _

theorem daysBeforeMonth_succ (year : Nat) {month : Nat} (hmonth : 1 ≤ month) :
    daysBeforeMonth year (month + 1) = daysBeforeMonth year month + monthDays year month := by
  cases month with
  | zero => omega
  | succ month => rfl

theorem daysBeforeMonth_twelve (year : Nat) :
    daysBeforeMonth year 12 + monthDays year 12 = if isLeap year then 366 else 365 := by
  simp only [daysBeforeMonth, monthDays]
  split <;> rfl

theorem daysBeforeMonth_mono (year : Nat) {month month' : Nat} (hmonth : 1 ≤ month)
    (h : month ≤ month') : daysBeforeMonth year month ≤ daysBeforeMonth year month' := by
  induction month', h using Nat.le_induction with
  | base => exact Nat.le_refl _
  | succ month' hle ih =>
    rw [daysBeforeMonth_succ year (Nat.le_trans hmonth hle)]
    exact Nat.le_trans ih (Nat.le_add_right _ _)

end Years

namespace Day

variable {d d' : Day}

theorem Exists.month_bounds (h : d.Exists) : 1 ≤ d.month ∧ d.month ≤ 12 := by
  have hdays : monthDays d.year d.month ≠ 0 := by
    have := h.1
    have := h.2
    omega
  unfold monthDays at hdays
  split at hdays <;> omega

theorem exists_first (year : Nat) {month : Nat} (hfirst : 1 ≤ month) (hlast : month ≤ 12) :
    (⟨year, month, 1⟩ : Day).Exists := by
  refine ⟨Nat.le_refl 1, ?_⟩
  change 1 ≤ monthDays year month
  unfold monthDays
  split
  case h_12 => split <;> decide
  case h_13 => interval_cases month <;> contradiction
  all_goals decide

/-- All days of a year come before the next year. -/
theorem Exists.daysBefore_lt (h : d.Exists) :
    daysBeforeYear d.year + daysBeforeMonth d.year d.month + (d.day - 1) <
      daysBeforeYear (d.year + 1) := by
  obtain ⟨hfirst, hlast⟩ := h.month_bounds
  have hmonth := daysBeforeMonth_succ d.year hfirst
  have hend : daysBeforeMonth d.year (d.month + 1) ≤
      daysBeforeMonth d.year 12 + monthDays d.year 12 :=
    daysBeforeMonth_mono d.year (Nat.le_add_left _ _) (Nat.succ_le_succ hlast)
  have hday := h.1
  have hdays := h.2
  rw [daysBeforeMonth_twelve] at hend
  rw [daysBeforeYear_succ]
  omega

theorem number_eq (d : Day) : d.number = daysBeforeYear d.year +
    daysBeforeMonth d.year d.month + (d.day - 1) - daysBeforeYear 1970 := rfl

theorem number_lt_of_year_lt (h : d.Exists) (hyear : 1970 ≤ d.year) (hlt : d.year < d'.year) :
    d.number < d'.number := by
  have hbefore := h.daysBefore_lt
  have hnext : daysBeforeYear (d.year + 1) ≤ daysBeforeYear d'.year := daysBeforeYear_mono hlt
  have hstart := daysBeforeYear_mono hyear
  have hday := h.1
  rw [number_eq, number_eq]
  omega

/-- A day of the calendar is given by its number. -/
theorem eq_of_number_eq (h : d.Exists) (h' : d'.Exists) (hyear : 1970 ≤ d.year)
    (hyear' : 1970 ≤ d'.year) (heq : d.number = d'.number) : d = d' := by
  have hyears : d.year = d'.year := by
    rcases Nat.lt_trichotomy d.year d'.year with hlt | hsame | hlt
    · exact absurd heq (Nat.ne_of_lt (number_lt_of_year_lt h hyear hlt))
    · exact hsame
    · exact absurd heq.symm (Nat.ne_of_lt (number_lt_of_year_lt h' hyear' hlt))
  obtain ⟨year, month, day⟩ := d
  obtain ⟨year', month', day'⟩ := d'
  obtain rfl : year = year' := hyears
  have hmonth := daysBeforeMonth_succ year h.month_bounds.1
  have hmonth' := daysBeforeMonth_succ year h'.month_bounds.1
  have hfirst := h.month_bounds.1
  have hfirst' := h'.month_bounds.1
  have hstart := daysBeforeYear_mono hyear
  obtain ⟨hday, hdays⟩ := h
  obtain ⟨hday', hdays'⟩ := h'
  simp only [number_eq] at *
  rcases Nat.lt_trichotomy month month' with hlt | rfl | hlt
  · have hle : daysBeforeMonth year (month + 1) ≤ daysBeforeMonth year month' :=
      daysBeforeMonth_mono year (Nat.le_add_left _ _) hlt
    omega
  · obtain rfl : day = day' := by omega
    rfl
  · have hle : daysBeforeMonth year (month' + 1) ≤ daysBeforeMonth year month :=
      daysBeforeMonth_mono year (Nat.le_add_left _ _) hlt
    omega

theorem Exists.next (h : d.Exists) : d.next.Exists := by
  obtain ⟨hfirst, hlast⟩ := h.month_bounds
  unfold Day.next
  split
  · next hlt => exact ⟨by simp, hlt⟩
  · split
    · next hlt => exact exists_first _ (by omega) hlt
    · exact exists_first _ (by decide) (by decide)

theorem year_le_next (d : Day) : d.year ≤ d.next.year := by
  unfold Day.next
  split
  · exact Nat.le_refl _
  · split
    · exact Nat.le_refl _
    · exact Nat.le_succ _

theorem number_next (h : d.Exists) (hyear : 1970 ≤ d.year) : d.next.number = d.number + 1 := by
  have hstart := daysBeforeYear_mono hyear
  have hday := h.1
  have hdays := h.2
  unfold Day.next
  split
  · simp only [number_eq]
    omega
  · split
    · next hend hmonth =>
      simp only [number_eq, daysBeforeMonth_succ d.year h.month_bounds.1]
      omega
    · next hend hmonth =>
      have hlast : d.month = 12 := by
        have := h.month_bounds.2
        omega
      have hwhole := daysBeforeMonth_twelve d.year
      have hyears := daysBeforeYear_succ d.year
      have hnone : daysBeforeMonth (d.year + 1) 1 = 0 := rfl
      rw [hlast] at hend hdays
      simp only [number_eq, hlast, hnone]
      omega

/-- Every day that is counted is a day of the calendar, and its number is the one counted to. -/
theorem ofNumber_spec (n : Nat) :
    (ofNumber n).Exists ∧ 1970 ≤ (ofNumber n).year ∧ (ofNumber n).number = n := by
  induction n with
  | zero => exact ⟨exists_first 1970 (by decide) (by decide), Nat.le_refl _, by decide⟩
  | succ n ih =>
    obtain ⟨hexists, hyear, hnumber⟩ := ih
    refine ⟨hexists.next, Nat.le_trans hyear (year_le_next _), ?_⟩
    rw [ofNumber, number_next hexists hyear, hnumber]

theorem ofNumber_number (h : d.Exists) (hyear : 1970 ≤ d.year) : ofNumber d.number = d := by
  obtain ⟨hexists, hlater, hnumber⟩ := ofNumber_spec d.number
  exact eq_of_number_eq hexists h hlater hyear hnumber

end Day

theorem contains_iff {year month day : Nat} : contains year month day = true ↔
    1970 ≤ year ∧ year ≤ 9999 ∧ (⟨year, month, day⟩ : Day).Exists := by
  simp only [contains, Day.Exists, Bool.and_eq_true, decide_eq_true_eq]
  tauto

end Retry.Calendar
