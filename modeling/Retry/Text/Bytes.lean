namespace Retry

abbrev Bytes := List UInt8

namespace Bytes

def ofString (s : String) : Bytes := s.toUTF8.toList

/-- The text that the bytes encode, if they are valid UTF-8. -/
def toString? (b : Bytes) : Option String := String.fromUTF8? ⟨b.toArray⟩

def charOf (b : UInt8) : Char := Char.ofNat b.toNat

def isVisible (b : UInt8) : Bool := (0x20 ≤ b && b ≤ 0x7e) || b = 0x09

/-- The text of a byte string that holds only printable ASCII and tabs. -/
def visible? (b : Bytes) : Option String :=
  if b.all isVisible then some (String.ofList (b.map charOf)) else none

end Bytes

namespace Text

def isBlank (c : Char) : Bool := c = ' ' || c = '\t'

def trim (cs : List Char) : List Char :=
  ((cs.dropWhile isBlank).reverse.dropWhile isBlank).reverse

def lower (cs : List Char) : List Char := cs.map Char.toLower

end Text

end Retry
