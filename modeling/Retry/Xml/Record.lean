import Retry.Record
import Retry.Xml.Run

namespace Retry.Xml

/-- The parts of an attribute: its name and what stands between its quotes. -/
structure Attribute where
  name : Bytes
  value : Bytes
  deriving DecidableEq, Repr

namespace Attribute

/-- Where a reader of attributes is. Bytes of a name or value stand last first. -/
inductive Mode where
  | between
  | name (raw : Bytes)
  | equals (name : Bytes)
  | quote (name : Bytes)
  | value (name : Bytes) (mark : UInt8) (raw : Bytes)

def feed (mode : Mode) (b : UInt8) : Option (Mode × Option Attribute) :=
  match mode with
  | .between => some (if Token.isBlank b then .between else .name [b], none)
  | .name raw =>
    if b = 0x3d then some (.quote raw.reverse, none)
    else if Token.isBlank b then some (.equals raw.reverse, none)
    else some (.name (b :: raw), none)
  | .equals name =>
    if b = 0x3d then some (.quote name, none)
    else if Token.isBlank b then some (.equals name, none)
    else none
  | .quote name =>
    if b = 0x22 || b = 0x27 then some (.value name b [], none)
    else if Token.isBlank b then some (.quote name, none)
    else none
  | .value name mark raw =>
    if b = mark then some (.between, some ⟨name, raw.reverse⟩)
    else some (.value name mark (b :: raw), none)

/-- The attributes from here on, after those known, which stand last first; a name may stand only
once. -/
def readFrom (mode : Mode) (known : List Attribute) : Bytes → Option (List Attribute)
  | [] =>
    match mode with
    | .between => some known.reverse
    | _ => none
  | b :: bs =>
    match feed mode b with
    | some (mode, some a) =>
      if known.any (·.name = a.name) then none else readFrom mode (a :: known) bs
    | some (mode, none) => readFrom mode known bs
    | none => none

def read (b : Bytes) : Option (List Attribute) := readFrom .between [] b

end Attribute

/-- What stands behind the first colon of a name that has one. -/
def localName? (name : Bytes) : Option String :=
  Bytes.toString? (match name.dropWhile (· ≠ 0x3a) with
    | [] => name
    | _ :: rest => rest)

/-- A whole number in digits, with a sign where one can be. -/
def integer? (signed : Bool) : List Char → Option Int
  | '+' :: digits => (number? 10 digits).map Int.ofNat
  | '-' :: digits => if signed then (number? 10 digits).map fun n => -Int.ofNat n else none
  | digits => (number? 10 digits).map Int.ofNat

def scalar? (s : Scalar) (t : String) : Option Json.Value :=
  match s with
  | .number least greatest =>
    (integer? (least < 0) t.toList).bind fun n =>
      if least ≤ n && n ≤ greatest then some (.int n) else none
  | .bool =>
    if t = "true" || t = "1" then some (.bool true)
    else if t = "false" || t = "0" then some (.bool false)
    else none
  | .text => some (.str t)

def slot? (s : Slot) (t : String) : Option Json.Value :=
  match s with
  | .one s => scalar? s t
  | .maybe s => scalar? s t
  | .flag => scalar? .bool t
  | .texts => some (.arr [.str t])

def contentText? : List Tree → Option String
  | [] => some ""
  | [.run pieces] => (Run.text? pieces).map fun t => t.getD ""
  | _ => none

/-- What was found of a record so far, last first, and the name of the elements that go on with
the list found last. -/
structure Found where
  values : List (String × Json.Value) := []
  listed : Option Bytes := none

namespace Found

def add (f : Found) (name : String) (v : Json.Value) (listed : Option Bytes) : Option Found :=
  if (f.values.lookup name).isSome then none else some ⟨(name, v) :: f.values, listed⟩

def lengthen (f : Found) (v : Json.Value) : Found :=
  match f.values with
  | (name, .arr items) :: rest => { f with values := (name, .arr (items ++ [v])) :: rest }
  | _ => f

def addAttribute (fields : List Field) (f : Found) (a : Attribute) : Option Found := do
  let name ← localName? a.name
  match fields.find? (·.name = "@" ++ name) with
  | none => some f
  | some field => f.add field.name (← slot? field.slot (← resolve? a.value)) none

/-- A child of the root. Text ends a list, and so does an element of another name. -/
def addChild (fields : List Field) (f : Found) : Tree → Option Found
  | .run pieces => (Run.text? pieces).map fun t =>
    if t.isSome then { f with listed := none } else f
  | .element name _ content =>
    if f.listed = some name then (contentText? content).map fun t => f.lengthen (.str t)
    else do
      match fields.find? (·.name = (← localName? name)) with
      | none => some { f with listed := none }
      | some field =>
        f.add field.name (← slot? field.slot (← contentText? content))
          (if field.slot = .texts then some name else none)

end Found

def record? (fields : List Field) : Tree → Option Json.Value
  | .run _ => none
  | .element _ attributes content => do
    let found ← (← Attribute.read attributes).foldlM (Found.addAttribute fields) {}
    let found ← content.foldlM (Found.addChild fields) found
    Field.fill fields found.values

/-- Whether pieces before the root hold nothing but blanks. -/
def isBlank (pieces : List Piece) : Bool :=
  match Run.text? pieces with
  | some t => (t.getD "").toUTF8.toList.all Token.isBlank
  | none => false

/-- The record that an XML text holds. Only records have a form in XML. -/
def decode (shape : Shape) (b : Bytes) : Option Json.Value :=
  match shape, Tree.read b with
  | .record fields, some (pieces, root) => if isBlank pieces then record? fields root else none
  | _, _ => none

end Retry.Xml
