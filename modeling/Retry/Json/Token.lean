import Retry.Text.Bytes

namespace Retry.Json

/-- Texts in quotes and words, which are numbers and names, are taken as they stand. -/
inductive Token where
  | openArr | closeArr | openObj | closeObj | comma | colon
  /-- What stands between two quotes. -/
  | quoted (raw : Bytes)
  | word (raw : Bytes)
  deriving DecidableEq, Repr

namespace Token

/-- Where a reader is: between tokens, or inside one whose bytes so far are given last first. -/
inductive Mode where
  | between
  | inQuotes (raw : Bytes) (escaped : Bool)
  | inWord (raw : Bytes)

def isBlank (b : UInt8) : Bool := b = 0x20 || b = 0x09 || b = 0x0a || b = 0x0d

def isWordByte (b : UInt8) : Bool :=
  (0x30 ≤ b && b ≤ 0x39) || (0x61 ≤ b && b ≤ 0x7a) || (0x41 ≤ b && b ≤ 0x5a) ||
    b = 0x2b || b = 0x2d || b = 0x2e

def mark? : UInt8 → Option Token
  | 0x5b => some openArr
  | 0x5d => some closeArr
  | 0x7b => some openObj
  | 0x7d => some closeObj
  | 0x2c => some comma
  | 0x3a => some colon
  | _ => none

def start (b : UInt8) : Option (Mode × List Token) :=
  if isBlank b then some (.between, [])
  else if b = 0x22 then some (.inQuotes [] false, [])
  else if isWordByte b then some (.inWord [b], [])
  else (mark? b).map fun t => (.between, [t])

def feed (mode : Mode) (b : UInt8) : Option (Mode × List Token) :=
  match mode with
  | .between => start b
  | .inWord raw =>
    if isWordByte b then some (.inWord (b :: raw), [])
    else (start b).map fun (mode, ts) => (mode, .word raw.reverse :: ts)
  | .inQuotes raw true => some (.inQuotes (b :: raw) false, [])
  | .inQuotes raw false =>
    if b = 0x22 then some (.between, [.quoted raw.reverse])
    else if b = 0x5c then some (.inQuotes (b :: raw) true, [])
    else if b < 0x20 then none
    else some (.inQuotes (b :: raw) false, [])

/-- The tokens from here on, after those known, which stand last first. -/
def readFrom (mode : Mode) (known : List Token) : Bytes → Option (List Token)
  | [] =>
    match mode with
    | .between => some known.reverse
    | .inWord raw => some (Token.word raw.reverse :: known).reverse
    | .inQuotes .. => none
  | b :: bs =>
    match feed mode b with
    | some (mode, ts) => readFrom mode (ts.reverse ++ known) bs
    | none => none

def read (b : Bytes) : Option (List Token) := readFrom .between [] b

end Token

end Retry.Json
