import Retry.Calendar

namespace Retry.Http

/-- A moment as written in a date: the fields as they stand, the weekday counted from Monday. -/
structure Date where
  year : Nat
  month : Nat
  day : Nat
  hour : Nat
  minute : Nat
  second : Nat
  weekday : Nat
  deriving DecidableEq, Repr

namespace Date

/-- The date is in the calendar, on its weekday, and the time of day is one. -/
def isValid (d : Date) : Bool :=
  Calendar.contains d.year d.month d.day
    && Calendar.weekday (Calendar.dayNumber d.year d.month d.day) = d.weekday
    && d.hour < 24 && d.minute < 60 && d.second < 60

def seconds (d : Date) : Nat :=
  ((Calendar.dayNumber d.year d.month d.day * 24 + d.hour) * 60 + d.minute) * 60 + d.second

/-- A reader takes what it knows off the front of a text. -/
abbrev Reader (α : Type) := List Char → Option (α × List Char)

def literal (s : List Char) : Reader Unit := fun cs =>
  if s.isPrefixOf cs then some ((), cs.drop s.length) else none

def digit? (c : Char) : Option Nat := if c.isDigit then some (c.toNat - 48) else none

/-- Exactly `count` digits, put after those that gave `value`. -/
def digits (value : Nat) : Nat → Reader Nat
  | 0 => fun cs => some (value, cs)
  | count + 1 => fun
    | c :: cs => (digit? c).bind fun k => digits (value * 10 + k) count cs
    | [] => none

def named (names : List (List Char)) (first : Nat) : Reader Nat := fun cs =>
  match names with
  | [] => none
  | name :: names =>
    if name.isPrefixOf cs then some (first, cs.drop name.length) else named names (first + 1) cs

def shortDays : List (List Char) :=
  ["Mon", "Tue", "Wed", "Thu", "Fri", "Sat", "Sun"].map String.toList

def longDays : List (List Char) :=
  ["Monday", "Tuesday", "Wednesday", "Thursday", "Friday", "Saturday", "Sunday"].map String.toList

def months : List (List Char) :=
  ["Jan", "Feb", "Mar", "Apr", "May", "Jun", "Jul", "Aug", "Sep", "Oct", "Nov", "Dec"].map
    String.toList

def timeOfDay : Reader (Nat × Nat × Nat) := fun cs => do
  let (hour, cs) ← digits 0 2 cs
  let (_, cs) ← literal [':'] cs
  let (minute, cs) ← digits 0 2 cs
  let (_, cs) ← literal [':'] cs
  let (second, cs) ← digits 0 2 cs
  some ((hour, minute, second), cs)

/-- Such as `Sun, 06 Nov 1994 08:49:37 GMT`. -/
def fixed : Reader Date := fun cs => do
  let (weekday, cs) ← named shortDays 1 cs
  let (_, cs) ← literal [',', ' '] cs
  let (day, cs) ← digits 0 2 cs
  let (_, cs) ← literal [' '] cs
  let (month, cs) ← named months 1 cs
  let (_, cs) ← literal [' '] cs
  let (year, cs) ← digits 0 4 cs
  let (_, cs) ← literal [' '] cs
  let ((hour, minute, second), cs) ← timeOfDay cs
  let (_, cs) ← literal [' ', 'G', 'M', 'T'] cs
  some (⟨year, month, day, hour, minute, second, weekday⟩, cs)

/-- The century of a year with two digits: the years before 70 are those after 2000. -/
def fullYear (year : Nat) : Nat := if year < 70 then 2000 + year else 1900 + year

/-- Such as `Sunday, 06-Nov-94 08:49:37 GMT`. -/
def dashed : Reader Date := fun cs => do
  let (weekday, cs) ← named longDays 1 cs
  let (_, cs) ← literal [',', ' '] cs
  let (day, cs) ← digits 0 2 cs
  let (_, cs) ← literal ['-'] cs
  let (month, cs) ← named months 1 cs
  let (_, cs) ← literal ['-'] cs
  let (year, cs) ← digits 0 2 cs
  let (_, cs) ← literal [' '] cs
  let ((hour, minute, second), cs) ← timeOfDay cs
  let (_, cs) ← literal [' ', 'G', 'M', 'T'] cs
  some (⟨fullYear year, month, day, hour, minute, second, weekday⟩, cs)

/-- A day in two places, the first of which may be a space. -/
def paddedDay : Reader Nat := fun
  | ' ' :: cs => digits 0 1 cs
  | cs => digits 0 2 cs

/-- Such as `Sun Nov  6 08:49:37 1994`. -/
def spaced : Reader Date := fun cs => do
  let (weekday, cs) ← named shortDays 1 cs
  let (_, cs) ← literal [' '] cs
  let (month, cs) ← named months 1 cs
  let (_, cs) ← literal [' '] cs
  let (day, cs) ← paddedDay cs
  let (_, cs) ← literal [' '] cs
  let ((hour, minute, second), cs) ← timeOfDay cs
  let (_, cs) ← literal [' '] cs
  let (year, cs) ← digits 0 4 cs
  some (⟨year, month, day, hour, minute, second, weekday⟩, cs)

def whole (r : Reader Date) (cs : List Char) : Option Date :=
  match r cs with
  | some (d, []) => some d
  | _ => none

/-- The date that a text spells, in whichever of the three ways. -/
def read? (cs : List Char) : Option Date :=
  (((whole fixed cs).or (whole dashed cs)).or (whole spaced cs)).filter isValid

end Date

end Retry.Http
