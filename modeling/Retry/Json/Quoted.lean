import Retry.Text.Bytes

namespace Retry.Json.Quoted

/-- Where a reader is. A number is a first surrogate that waits for its second. -/
inductive Mode where
  | plain
  | escape (first : Option Nat)
  | hex (left value : Nat) (first : Option Nat)
  | surrogate (first : Nat)

def short? : UInt8 → Option UInt8
  | 0x22 => some 0x22
  | 0x5c => some 0x5c
  | 0x2f => some 0x2f
  | 0x62 => some 0x08
  | 0x66 => some 0x0c
  | 0x6e => some 0x0a
  | 0x72 => some 0x0d
  | 0x74 => some 0x09
  | _ => none

def hexDigit? (b : UInt8) : Option Nat :=
  if 0x30 ≤ b && b ≤ 0x39 then some (b.toNat - 0x30)
  else if 0x61 ≤ b && b ≤ 0x66 then some (b.toNat - 0x61 + 10)
  else if 0x41 ≤ b && b ≤ 0x46 then some (b.toNat - 0x41 + 10)
  else none

def isFirst (unit : Nat) : Bool := 0xD800 ≤ unit && unit ≤ 0xDBFF

def isSecond (unit : Nat) : Bool := 0xDC00 ≤ unit && unit ≤ 0xDFFF

def paired (first second : Nat) : Nat := (first - 0xD800) * 0x400 + (second - 0xDC00) + 0x10000

def encode (point : Nat) : Bytes := Bytes.ofString (String.singleton (Char.ofNat point))

/-- A complete escape of four digits, after a first surrogate or none. -/
def unit (value : Nat) : Option Nat → Option (Mode × Bytes)
  | some first => if isSecond value then some (.plain, encode (paired first value)) else none
  | none =>
    if isSecond value then none
    else if isFirst value then some (.surrogate value, [])
    else some (.plain, encode value)

/-- One byte more. Where the text is not wanted, surrogates go unpaired. -/
def feed (wanted : Bool) : Mode → UInt8 → Option (Mode × Bytes)
  | .plain, b => some (if b = 0x5c then (.escape none, []) else (.plain, [b]))
  | .escape first, b =>
    if b = 0x75 then some (.hex 4 0 first, [])
    else if first.isSome then none
    else (short? b).map fun c => (.plain, [c])
  | .hex left value first, b =>
    (hexDigit? b).bind fun d =>
      let value := 16 * value + d
      if 1 < left then some (.hex (left - 1) value first, [])
      else if wanted then unit value first
      else some (.plain, [])
  | .surrogate first, b => if b = 0x5c then some (.escape (some first), []) else none

/-- The bytes that a text stands for, after those known, which stand last first. -/
def readFrom (wanted : Bool) (mode : Mode) (known : Bytes) : Bytes → Option Bytes
  | [] =>
    match mode with
    | .plain => some known.reverse
    | _ => none
  | b :: bs =>
    match feed wanted mode b with
    | some (mode, out) => readFrom wanted mode (out.reverse ++ known) bs
    | none => none

def isWellFormed (raw : Bytes) : Bool := (readFrom false .plain [] raw).isSome

def text? (raw : Bytes) : Option String := (readFrom true .plain [] raw).bind Bytes.toString?

end Retry.Json.Quoted
