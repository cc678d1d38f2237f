import Retry.Text.Bytes

namespace Retry.Xml

inductive Token where
  /-- What stands between `<` and `>`. -/
  | opening (raw : Bytes)
  /-- What stands between `</` and `>`. -/
  | closing (raw : Bytes)
  /-- Text in which references stand for characters. -/
  | text (raw : Bytes)
  /-- Text that is taken as it stands. -/
  | verbatim (raw : Bytes)
  deriving DecidableEq, Repr

namespace Token

/-- Where a reader is. The bytes so far are given last first. -/
inductive Mode where
  | text (raw : Bytes)
  /-- Behind `<`. -/
  | markup
  /-- Behind `<!`. -/
  | declaration
  /-- In a tag, between quotes or not. -/
  | tag (closes : Bool) (raw : Bytes) (quote : Option UInt8)
  | instruction (raw : Bytes)
  | comment (raw : Bytes)
  | verbatim (raw : Bytes)
  /-- In a document type, with this many `<` still open. -/
  | docType (raw : Bytes) (depth : Nat)

def isBlank (b : UInt8) : Bool := b = 0x20 || b = 0x09 || b = 0x0a || b = 0x0d

/-- Whether `raw`, given last first, ends with `word`. -/
def ends (word : String) (raw : Bytes) : Bool := (Bytes.ofString word).reverse.isPrefixOf raw

def starts (word : String) (raw : Bytes) : Bool := (Bytes.ofString word).isPrefixOf raw

/-- One byte more of a tag. A `>` between quotes does not end it. -/
def feedTag (closes : Bool) (raw : Bytes) (quote : Option UInt8) (b : UInt8) :
    Mode × List Token :=
  match quote with
  | some q => (.tag closes (b :: raw) (if b = q then none else some q), [])
  | none =>
    if b = 0x3e then (.text [], [if closes then closing raw.reverse else opening raw.reverse])
    else (.tag closes (b :: raw) (if b = 0x22 || b = 0x27 then some b else none), [])

def pass (wellFormed : Bool) : Option (Mode × List Token) :=
  if wellFormed then some (.text [], []) else none

/-- Behind `<!`, the next byte says what is declared. -/
def declare (b : UInt8) : Option (Mode × List Token) :=
  if b = 0x2d then some (.comment [b, 0x21], [])
  else if b = 0x5b then some (.verbatim [b, 0x21], [])
  else if b = 0x44 || b = 0x64 then some (.docType [b, 0x21] 0, [])
  else none

/-- Whether `raw`, given last first, names a document type and says something of it. -/
def isDocType (raw : Bytes) : Bool :=
  let raw := raw.reverse
  (raw.take 8).map (fun b => (Bytes.charOf b).toUpper) = "!DOCTYPE".toList &&
    (raw.drop 8).any (!isBlank ·)

/-- One byte more, and the token that it completes. -/
def feed (mode : Mode) (b : UInt8) : Option (Mode × List Token) :=
  match mode with
  | .text raw =>
    if b = 0x3c then some (.markup, if raw.isEmpty then [] else [text raw.reverse])
    else some (.text (b :: raw), [])
  | .markup =>
    if b = 0x21 then some (.declaration, [])
    else if b = 0x3f then some (.instruction [b], [])
    else if b = 0x2f then some (.tag true [] none, [])
    else some (feedTag false [] none b)
  | .declaration => declare b
  | .tag closes raw quote => some (feedTag closes raw quote b)
  | .instruction raw =>
    if b = 0x3e && ends "?" raw then pass (1 < raw.length) else some (.instruction (b :: raw), [])
  | .comment raw =>
    if b = 0x3e && ends "--" raw && 4 < raw.length then pass (starts "!--" raw.reverse)
    else some (.comment (b :: raw), [])
  | .verbatim raw =>
    if b = 0x3e && ends "]]" raw then
      if starts "![CDATA[" raw.reverse then
        some (.text [], [verbatim ((raw.drop 2).reverse.drop 8)])
      else none
    else some (.verbatim (b :: raw), [])
  | .docType raw depth =>
    if b = 0x3c then some (.docType (b :: raw) (depth + 1), [])
    else if b = 0x3e then
      match depth with
      | 0 => pass (isDocType raw)
      | depth + 1 => some (.docType (b :: raw) depth, [])
    else some (.docType (b :: raw) depth, [])

/-- The tokens from here on, after those known, which stand last first. They end where the text stops
being well formed, for what stands behind the close of the root is of no interest. -/
def readFrom (mode : Mode) (known : List Token) : Bytes → List Token
  | [] => known.reverse
  | b :: bs =>
    match feed mode b with
    | some (mode, ts) => readFrom mode (ts ++ known) bs
    | none => known.reverse

/-- The mark that may stand before a text in UTF-8. -/
def byteOrderMark : Bytes := [0xef, 0xbb, 0xbf]

def read (b : Bytes) : List Token :=
  readFrom (.text []) [] (if byteOrderMark.isPrefixOf b then b.drop 3 else b)

end Token

end Retry.Xml
