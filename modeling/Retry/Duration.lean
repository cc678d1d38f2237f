namespace Retry

namespace Duration

/-- Lengths of time and points in time are whole nanoseconds; a clock begins at zero. -/
def millisecond : Nat := 1000000

def second : Nat := 1000000000

/-- The longest wait and the longest attempt timeout that a policy allows. -/
def day : Nat := 24 * 60 * 60 * second

/-- The greatest length that fits 64-bit seconds and nine decimal places. -/
def greatest : Nat := 1 <<< 64 * second - 1

def ofMillis (n : Nat) : Nat := n * millisecond

def ofSecs (n : Nat) : Nat := n * second

def millis (d : Nat) : Nat := d / millisecond

/-- A fraction `n / 10 ^ places` without its trailing zeros, after a point; empty for zero. -/
def fraction (n places : Nat) : String :=
  if n = 0 then ""
  else
    let digits := Nat.toDigits 10 n
    let padded := List.replicate (places - digits.length) '0' ++ digits
    "." ++ String.ofList (padded.reverse.dropWhile (· = '0')).reverse

/-- The exact length in the largest unit of s, ms, µs and ns that is not above it. -/
def text (d : Nat) : String :=
  if second ≤ d then toString (d / second) ++ fraction (d % second) 9 ++ "s"
  else if millisecond ≤ d then toString (d / millisecond) ++ fraction (d % millisecond) 6 ++ "ms"
  else if 1000 ≤ d then toString (d / 1000) ++ fraction (d % 1000) 3 ++ "µs"
  else toString d ++ "ns"

/-- The first whole millisecond not before `t`: timers fire on whole milliseconds only. -/
def tick (t : Nat) : Nat :=
  (t + (millisecond - 1)) / millisecond * millisecond

theorem le_tick (t : Nat) : t ≤ tick t := by
  unfold tick millisecond
  omega

/-- The first moment that no clock shows: clocks count seconds in 63 bits. -/
def clockEnd : Nat := 1 <<< 63 * second

/-- The moment `length` after `t`, if a clock can show it. -/
def later? (t length : Nat) : Option Nat :=
  if t + length < clockEnd then some (t + length) else none

end Duration

end Retry
