import Retry.Duration

namespace Retry

inductive Backoff where
  /-- The same delay before every retry. -/
  | constant (delay : Nat)
  /-- A delay of `base * attempt`, optionally capped. -/
  | linear (base : Nat) (max : Option Nat)
  /-- A delay of `base * 2 ^ (attempt - 1)`, optionally capped. -/
  | exponential (base : Nat) (max : Option Nat)
  deriving DecidableEq, Repr

namespace Backoff

inductive CapError where
  | constantTakesNone
  | notPositive
  | belowBase (base max : Nat)
  deriving DecidableEq, Repr

def CapError.message : CapError → String
  | constantTakesNone => "with_max is only valid for linear or exponential backoff"
  | notPositive => "max must be greater than zero"
  | belowBase base max =>
    "max (" ++ Duration.text max ++ ") must be >= base (" ++ Duration.text base ++ ")"

def standard : Backoff := constant (Duration.ofMillis 200)

instance : Inhabited Backoff := ⟨standard⟩

/-- Cap a growing backoff at `max`, in place of any earlier cap. -/
def withMax (b : Backoff) (max : Nat) : Except CapError Backoff :=
  if max = 0 then .error .notPositive
  else match b with
    | constant _ => .error .constantTakesNone
    | linear base _ =>
      if max < base then .error (.belowBase base max) else .ok (linear base (some max))
    | exponential base _ =>
      if max < base then .error (.belowBase base max) else .ok (exponential base (some max))

def ceiling : Nat := 1 <<< 128 - 1

/-- The power `2 ^ e`, held at the largest 128-bit number. -/
def pow2 (e : Nat) : Nat := if e < 128 then 1 <<< e else ceiling

/-- The largest factor and exponent that enter the computation. -/
def greatestFactor : Nat := 1 <<< 32 - 1

def uncapped (b : Backoff) (attempt : Nat) : Nat :=
  match b with
  | constant delay => delay
  | linear base _ =>
    let product := base * min attempt greatestFactor
    if product ≤ Duration.greatest then product else Duration.day
  | exponential base _ =>
    min (min (base * pow2 (min (attempt - 1) greatestFactor)) ceiling) Duration.day

def cap? : Backoff → Option Nat
  | constant _ => none
  | linear _ max => max
  | exponential _ max => max

/-- The delay after `attempt` attempts: none before the first, and never more than a day. -/
def delay (b : Backoff) (attempt : Nat) : Nat :=
  if attempt = 0 then 0
  else
    let raw := b.uncapped attempt
    min (match b.cap? with
      | some max => min raw max
      | none => raw) Duration.day

theorem delay_le_day (b : Backoff) (n : Nat) : b.delay n ≤ Duration.day := by
  unfold delay
  split
  · exact Nat.zero_le _
  · exact Nat.min_le_right _ _

private def capText : Option Nat → String
  | none => "None"
  | some max => "Some(" ++ Duration.text max ++ ")"

def text : Backoff → String
  | constant delay => "Constant(" ++ Duration.text delay ++ ")"
  | linear base max =>
    "Linear \x7b base: " ++ Duration.text base ++ ", max: " ++ capText max ++ " \x7d"
  | exponential base max =>
    "Exponential \x7b base: " ++ Duration.text base ++ ", max: " ++ capText max ++ " \x7d"

end Backoff

end Retry
