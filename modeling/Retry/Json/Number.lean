import Retry.Json.Value
import Retry.Text.Bytes

namespace Retry.Json

structure Number where
  negative : Bool
  whole : List Nat
  fraction : Option (List Nat)
  /-- Whether the exponent is negative, and its digits. -/
  exponent : Option (Bool × List Nat)
  deriving DecidableEq, Repr

namespace Number

def isDigit (b : UInt8) : Bool := 0x30 ≤ b && b ≤ 0x39

/-- The digits at the start of a text, and what follows them. -/
def digits (b : Bytes) : List Nat × Bytes :=
  ((b.takeWhile isDigit).map fun d => d.toNat - 0x30, b.dropWhile isDigit)

/-- A fraction, if there is one, has a digit at least. -/
def readFraction : Bytes → Option (Option (List Nat) × Bytes)
  | 0x2e :: b =>
    let (ds, b) := digits b
    if ds.isEmpty then none else some (some ds, b)
  | b => some (none, b)

def readExponentSign : Bytes → Bool × Bytes
  | 0x2b :: b => (false, b)
  | 0x2d :: b => (true, b)
  | b => (false, b)

def readExponent : Bytes → Option (Option (Bool × List Nat) × Bytes)
  | [] => some (none, [])
  | e :: b =>
    if e = 0x65 || e = 0x45 then
      let (negative, b) := readExponentSign b
      let (ds, b) := digits b
      if ds.isEmpty then none else some (some (negative, ds), b)
    else some (none, e :: b)

/-- A whole text that is a number; a zero stands alone before the point. -/
def read (raw : Bytes) : Option Number :=
  let negative := raw.head? = some 0x2d
  let (whole, b) := digits (if negative then raw.tail else raw)
  if whole.isEmpty || (whole.head? = some 0 && 1 < whole.length) then none
  else match readFraction b with
    | none => none
    | some (fraction, b) =>
      match readExponent b with
      | some (exponent, []) => some ⟨negative, whole, fraction, exponent⟩
      | _ => none

def greatest : Nat := 1 <<< 64 - 1

/-- Take digits while the number they make fits 64 bits; the digits that are left over. -/
def gather (value : Nat) : List Nat → Nat × List Nat
  | [] => (value, [])
  | d :: ds => if value * 10 + d ≤ greatest then gather (value * 10 + d) ds else (value, d :: ds)

def greatestExponent : Nat := 1 <<< 31 - 1

/-- The value of exponent digits, if it is not too large to be kept. -/
def exponentValue (value : Nat) : List Nat → Option Nat
  | [] => some value
  | d :: ds =>
    if value * 10 + d ≤ greatestExponent then exponentValue (value * 10 + d) ds else none

def power (k : Nat) : Float := Float.ofScientific 1 false k

def largestPower : Nat := 308

/-- The number `f * 10 ^ exponent` in floating steps; none if it is too large. Exponents below the
powers there are take several divisions, at most `fuel`. -/
def scaled (f : Float) (exponent : Int) : Nat → Option Float
  | 0 => some f
  | fuel + 1 =>
    if exponent.natAbs ≤ largestPower then
      if 0 ≤ exponent then
        let r := f * power exponent.natAbs
        if r.isInf then none else some r
      else some (f / power exponent.natAbs)
    else if f == 0.0 then some f
    else if 0 ≤ exponent then none
    else scaled (f / power largestPower) (exponent + largestPower) fuel

/-- After this many divisions by the largest power nothing is left of any number. -/
def divisions : Nat := 8

def signed (negative : Bool) (f : Float) : Value := .float (if negative then -f else f)

/-- A floating value of gathered digits, a decimal exponent, and the exponent as written. -/
def floating (n : Number) (digits : Nat) (exponent : Int) : Option Value :=
  let f := (UInt64.ofNat digits).toFloat
  match n.exponent with
  | none => (scaled f exponent divisions).map (signed n.negative)
  | some (negative, ds) =>
    match exponentValue 0 ds with
    | some e =>
      (scaled f (if negative then exponent - e else exponent + e) divisions).map
        (signed n.negative)
    | none => if digits ≠ 0 && !negative then none else some (signed n.negative 0.0)

/-- The value of a number, unless it is too large. A negative zero is floating. -/
def value? (n : Number) : Option Value :=
  let (whole, left) := gather 0 n.whole
  match n.fraction with
  | some ds =>
    let (all, rest) := gather whole ds
    floating n all ((left.length : Int) - ((ds.length - rest.length : Nat) : Int))
  | none =>
    if !left.isEmpty || n.exponent.isSome then floating n whole left.length
    else if !n.negative then some (.int whole)
    else if 0 < whole && whole ≤ 1 <<< 63 then some (.int (-whole))
    else some (signed true (UInt64.ofNat whole).toFloat)

end Number

end Retry.Json
