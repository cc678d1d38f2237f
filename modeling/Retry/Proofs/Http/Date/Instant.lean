import Retry.Proofs.Http.Date.Spelling

namespace Retry.Http.Date

open Calendar (Day)

/-- The date of a moment that is so many seconds after the start of 1970. -/
def ofSeconds (t : Nat) : Date :=
  let day := Day.ofNumber (t / 86400)
  { year := day.year, month := day.month, day := day.day
    hour := t / 3600 % 24, minute := t / 60 % 60, second := t % 60
    weekday := Calendar.countedWeekday (t / 86400) }

def onDay (d : Date) : Day := ⟨d.year, d.month, d.day⟩

theorem onDay_ofSeconds (t : Nat) : (ofSeconds t).onDay = Day.ofNumber (t / 86400) := rfl

theorem isValid_iff {d : Date} : d.isValid = true ↔
    (1970 ≤ d.year ∧ d.year ≤ 9999 ∧ d.onDay.Exists) ∧
      Calendar.weekday d.onDay.number = d.weekday ∧ d.hour < 24 ∧ d.minute < 60 ∧ d.second < 60 := by
  simp only [isValid, Bool.and_eq_true, decide_eq_true_eq, Calendar.contains_iff, and_assoc]
  rfl

theorem seconds_eq (d : Date) :
    d.seconds = d.onDay.number * 86400 + d.hour * 3600 + d.minute * 60 + d.second := by
  have hday : Calendar.dayNumber d.year d.month d.day = d.onDay.number := rfl
  rw [seconds, hday]
  omega

variable {t : Nat}

theorem seconds_ofSeconds (t : Nat) : (ofSeconds t).seconds = t := by
  rw [seconds_eq, onDay_ofSeconds, (Day.ofNumber_spec _).2.2]
  simp only [ofSeconds]
  omega

theorem year_ofSeconds (t : Nat) : 1970 ≤ (ofSeconds t).year := (Day.ofNumber_spec (t / 86400)).2.1

theorem isValid_ofSeconds (hyear : (ofSeconds t).year ≤ 9999) : (ofSeconds t).isValid = true := by
  obtain ⟨hexists, -, hnumber⟩ := Day.ofNumber_spec (t / 86400)
  refine isValid_iff.mpr ⟨⟨year_ofSeconds t, hyear, hexists⟩, ?_, ?_⟩
  · rw [onDay_ofSeconds, hnumber]
    exact (Calendar.countedWeekday_eq _).symm
  · simp only [ofSeconds]
    omega

/-- A date of the calendar is the date of its own moment. -/
theorem ofSeconds_seconds {d : Date} (h : d.isValid = true) : ofSeconds d.seconds = d := by
  obtain ⟨⟨hyear, -, hexists⟩, hweekday, hhour, hminute, hsecond⟩ := isValid_iff.mp h
  have hdays : d.seconds / 86400 = d.onDay.number := by
    rw [seconds_eq]
    omega
  have hday : Day.ofNumber (d.seconds / 86400) = d.onDay := by
    rw [hdays, Day.ofNumber_number hexists hyear]
  have hname : Calendar.countedWeekday (d.seconds / 86400) = d.weekday := by
    rw [Calendar.countedWeekday_eq, hdays, hweekday]
  have hclock : d.seconds / 3600 % 24 = d.hour ∧ d.seconds / 60 % 60 = d.minute ∧
      d.seconds % 60 = d.second := by
    rw [seconds_eq]
    omega
  simp only [ofSeconds, hday, hname, hclock]
  rfl

/-- A text spells a moment, in one of the forms. -/
def Spells (cs : List Char) (t : Nat) : Prop :=
  (ofSeconds t).year ≤ 9999 ∧ ∃ f : Form, f.Covers (ofSeconds t) ∧ cs = f.text (ofSeconds t)

theorem read?_of_spells {cs : List Char} (h : Spells cs t) : read? cs = some (ofSeconds t) :=
  read?_eq_some_iff.mpr ⟨isValid_ofSeconds h.1, h.2⟩

theorem spells_of_read? {cs : List Char} {d : Date} (h : read? cs = some d) :
    Spells cs d.seconds := by
  obtain ⟨hvalid, f, hf, htext⟩ := read?_eq_some_iff.mp h
  unfold Spells
  rw [ofSeconds_seconds hvalid]
  exact ⟨(isValid_iff.mp hvalid).1.2.1, f, hf, htext⟩

/-- Without its century a year is read as no later one, and the date as no later moment. -/
theorem seconds_fullYear_le {d : Date} (hyear : 2070 ≤ d.year)
    (h : { d with year := fullYear (d.year % 100) }.isValid = true) :
    { d with year := fullYear (d.year % 100) }.seconds ≤ d.seconds := by
  have hearlier : fullYear (d.year % 100) < d.year := by
    unfold fullYear
    split <;> omega
  obtain ⟨⟨hfirst, -, hday⟩, -⟩ := isValid_iff.mp h
  have hlt : (onDay { d with year := fullYear (d.year % 100) }).number < d.onDay.number :=
    Day.number_lt_of_year_lt hday hfirst hearlier
  rw [seconds_eq, seconds_eq]
  simp only at hlt ⊢
  omega

end Retry.Http.Date
