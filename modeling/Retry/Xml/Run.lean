import Retry.Xml.Tree

namespace Retry.Xml

def named? (name : List Char) : Option Char :=
  if name = "lt".toList then some '<'
  else if name = "gt".toList then some '>'
  else if name = "amp".toList then some '&'
  else if name = "apos".toList then some '\''
  else if name = "quot".toList then some '"'
  else none

def digit? (base : Nat) (c : Char) : Option Nat :=
  let value :=
    if c.isDigit then c.toNat - 0x30
    else if 'a' ≤ c ∧ c ≤ 'f' then c.toNat - 0x61 + 10
    else if 'A' ≤ c ∧ c ≤ 'F' then c.toNat - 0x41 + 10
    else base
  if value < base then some value else none

/-- The number that the digits write, given that there are any. -/
def number? (base : Nat) (digits : List Char) : Option Nat :=
  if digits.isEmpty then none
  else digits.foldlM (fun value c => (digit? base c).map (value * base + ·)) 0

def numbered? (n : Nat) : Option Char :=
  if n ≠ 0 ∧ (n < 0xD800 ∨ (0xDFFF < n ∧ n < 0x110000)) then some (Char.ofNat n) else none

/-- The character that stands for what is between `&` and `;`. -/
def referred? : List Char → Option Char
  | '#' :: 'x' :: digits => (number? 16 digits).bind numbered?
  | '#' :: digits => (number? 10 digits).bind numbered?
  | name => named? name

/-- Put characters for references, from inside a reference or outside of one. What was read of the
reference and of the text stands last first. -/
def resolveFrom (inside : Option (List Char)) (known : List Char) : List Char →
    Option (List Char)
  | [] => if inside.isSome then none else some known.reverse
  | c :: cs =>
    match inside with
    | none => if c = '&' then resolveFrom (some []) known cs else resolveFrom none (c :: known) cs
    | some name =>
      if c = ';' then (referred? name.reverse).bind fun d => resolveFrom none (d :: known) cs
      else if c = '&' then none
      else resolveFrom (some (c :: name)) known cs

/-- The text that a raw text means; an unknown or unfinished reference is an error. -/
def resolve? (raw : Bytes) : Option String :=
  (Bytes.toString? raw).bind fun s => (resolveFrom none [] s.toList).map String.ofList

namespace Piece

def text? : Piece → Option String
  | text raw => resolve? raw
  | verbatim raw => Bytes.toString? raw

end Piece

namespace Run

/-- Drop the blanks before the first piece, and text pieces that hold nothing else. -/
def trimStart : List Piece → List Piece
  | .text raw :: pieces =>
    let raw := raw.dropWhile Token.isBlank
    if raw.isEmpty then trimStart pieces else .text raw :: pieces
  | pieces => pieces

def trimEnd : List Piece → List Piece
  | [] => []
  | [.text raw] => [.text (Tree.dropBlanksAtEnd raw)]
  | p :: pieces => p :: trimEnd pieces

def trim (pieces : List Piece) : List Piece := trimEnd (trimStart pieces)

/-- The text of a run; `some none` is no text at all. -/
def text? (pieces : List Piece) : Option (Option String) :=
  match trim pieces with
  | [] => some none
  | pieces => (pieces.mapM Piece.text?).map fun texts => some (String.join texts)

end Run

end Retry.Xml
