import Retry.Fault.Basic
import Retry.Http.Date

namespace Retry.Http

def decimal? (cs : List Char) : Option Nat :=
  if !cs.isEmpty && cs.all Char.isDigit then
    some (cs.foldl (fun value c => value * 10 + (c.toNat - 48)) 0)
  else none

def seconds? (cs : List Char) : Option Nat := (decimal? cs).filter (· < 1 <<< 64)

/-- Nanoseconds from `now` until a date, if the date is not before `now`. -/
def until? (d : Date) (now : WallTime) : Option Nat :=
  let gap := (d.seconds : Int) * 1000000000 - now.total
  if 0 ≤ gap then some gap.toNat else none

/-- The delay that a text asks for: seconds if it starts with a digit, else a date to wait for. No
delay at all is none asked for. -/
def delayOf? (cs : List Char) (now : WallTime) : Option Nat :=
  let delay :=
    if (cs.head?.map Char.isDigit).getD false then (seconds? cs).map (· * 1000000000)
    else (Date.read? cs).bind (until? · now)
  delay.filter (0 < ·)

def retryAfter? (h : Headers) (now : WallTime) : Option Nat :=
  (h.text? "retry-after").bind fun cs => delayOf? (Text.trim cs) now

end Retry.Http

namespace Retry.HttpFault

def retryAfter? (f : HttpFault) (now : WallTime) : Option Nat :=
  match f with
  | status rejection => Http.retryAfter? rejection.headers now
  | _ => none

end Retry.HttpFault
