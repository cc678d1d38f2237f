namespace Retry

/-- A reading of the wall clock: whole seconds since 1970, which may be negative, and the
nanoseconds after them. -/
structure WallTime where
  seconds : Int
  nanos : Nat := 0
  deriving DecidableEq, Repr

def WallTime.total (w : WallTime) : Int := w.seconds * 1000000000 + w.nanos

namespace Calendar

def isLeap (year : Nat) : Bool := (year % 4 = 0 && year % 100 ≠ 0) || year % 400 = 0

/-- The days of month 1 to 12 of a year; none in any other month. -/
def monthDays (year : Nat) : Nat → Nat
  | 1 | 3 | 5 | 7 | 8 | 10 | 12 => 31
  | 4 | 6 | 9 | 11 => 30
  | 2 => if isLeap year then 29 else 28
  | _ => 0

/-- Days from the start of year 0 to the start of `year`. -/
def daysBeforeYear (year : Nat) : Nat :=
  365 * year + (year + 3) / 4 - (year + 99) / 100 + (year + 399) / 400

def daysBeforeMonth (year : Nat) : Nat → Nat
  | 0 => 0
  | 1 => 0
  | month + 1 => daysBeforeMonth year month + monthDays year month

/-- Days from 1 January 1970. -/
def dayNumber (year month day : Nat) : Nat :=
  daysBeforeYear year + daysBeforeMonth year month + (day - 1) - daysBeforeYear 1970

/-- Monday is 1 and Sunday 7; 1 January 1970 was a Thursday. -/
def weekday (dayNumber : Nat) : Nat := (dayNumber + 3) % 7 + 1

def contains (year month day : Nat) : Bool :=
  1970 ≤ year && year ≤ 9999 && 1 ≤ day && day ≤ monthDays year month

end Calendar

end Retry
