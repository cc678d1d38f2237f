namespace Retry.Json

inductive Value where
  | null
  | bool (value : Bool)
  | int (value : Int)
  | float (value : Float)
  | str (value : String)
  | arr (items : List Value)
  /-- Named values in order; of one name the last counts. -/
  | obj (fields : List (String × Value))
  deriving Inhabited

/-- The sign, the odd or zero factor and the power of two that make up a finite number. -/
def parts (x : Float) : Bool × Nat × Int :=
  let bits := x.toBits.toNat
  let negative := bits >>> 63 % 2 = 1
  let exponent : Nat := bits >>> 52 % 1 <<< 11
  let fraction : Nat := bits % 1 <<< 52
  let (factor, power) : Nat × Int :=
    if exponent = 0 then (fraction, -1074) else (fraction + 1 <<< 52, (exponent : Int) - 1075)
  (negative, factor, power)

/-- The exact decimal expansion of a finite number, always with a point. -/
def floatText (x : Float) : String :=
  let (negative, factor, power) := parts x
  let sign := if negative then "-" else ""
  if 0 ≤ power then sign ++ toString (factor <<< power.toNat) ++ ".0"
  else
    let places := (-power).toNat
    let digits := (toString (factor * Nat.pow 5 places)).toList
    let padded := List.replicate (places + 1 - digits.length) '0' ++ digits
    let whole := padded.take (padded.length - places)
    let rest := (padded.drop (padded.length - places)).reverse.dropWhile (· = '0') |>.reverse
    sign ++ String.ofList whole ++ "." ++ String.ofList (if rest.isEmpty then ['0'] else rest)

def escaped (c : Char) : String :=
  if c = '"' then "\\\""
  else if c = '\\' then "\\\\"
  else if c.toNat < 0x20 then
    let digits := Nat.toDigits 16 c.toNat
    "\\u" ++ String.ofList (List.replicate (4 - digits.length) '0' ++ digits)
  else String.singleton c

def stringText (s : String) : String :=
  s.foldl (fun acc c => acc ++ escaped c) "\"" ++ "\""

mutual

def Value.write (done : String) : Value → String
  | .null => done ++ "null"
  | .bool value => done ++ (if value then "true" else "false")
  | .int value => done ++ toString value
  | .float value => done ++ floatText value
  | .str value => done ++ stringText value
  | .arr items => writeItems (done ++ "[") items ++ "]"
  | .obj fields => writeFields (done ++ "\x7b") fields ++ "\x7d"

def writeItems (done : String) : List Value → String
  | [] => done
  | [v] => v.write done
  | v :: vs => writeItems (v.write done ++ ",") vs

def writeFields (done : String) : List (String × Value) → String
  | [] => done
  | [(name, v)] => v.write (done ++ stringText name ++ ":")
  | (name, v) :: fields => writeFields (v.write (done ++ stringText name ++ ":") ++ ",") fields

end

def Value.text (v : Value) : String := v.write ""

end Retry.Json
