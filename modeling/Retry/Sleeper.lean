import Retry.Timeline

namespace Retry

/-- A sleeper: the text that shows it, for how long it sets a timer when it is asked for a delay, if
it sets one, and whether it keeps a list of the delays that it was asked for. -/
structure Sleeper where
  text : String
  rest : Nat → Option Nat
  records : Bool := false

namespace Sleeper

def timer : Sleeper := ⟨"TokioSleeper", some, false⟩

def instant : Sleeper := ⟨"InstantSleeper", fun _ => none, false⟩

/-- Does not wait, and lists the delays it is asked for. -/
def tracking : Sleeper :=
  ⟨"TrackingSleeper \x7b calls: Mutex \x7b data: [], poisoned: false, .. \x7d \x7d",
    fun _ => none, true⟩

instance : Inhabited Sleeper := ⟨timer⟩

/-- For how long a timer is set when no clock can show the moment at which it should go off. -/
def farAway : Nat := 86400 * 365 * 30 * Duration.second

/-- The moment at which a sleep is over that is asked for at `now`: without a timer that is at
once. -/
def wake (s : Sleeper) (now delay : Nat) : Nat :=
  match s.rest delay with
  | some length => Duration.tick ((Duration.later? now length).getD (now + farAway))
  | none => now

/-- The moments at which requested sleeps end when each is waited for, or are requested when none
is, and how many requests a recording sleeper holds right after each. -/
def requests (s : Sleeper) (waited : Bool) (now count : Nat) : List Nat → List (Nat × Nat)
  | [] => []
  | delay :: delays =>
    let now := if waited then s.wake now delay else now
    let count := if s.records then count + 1 else count
    (now, count) :: s.requests waited now count delays

end Sleeper

end Retry
