import Retry.Json.Tree
import Retry.Record

namespace Retry.Json

def scalar? (s : Scalar) (t : Tree) : Option Value :=
  match s, t with
  | .number least greatest, .word raw =>
    match Tree.wordValue? raw with
    | some (.int n) => if least ≤ n && n ≤ greatest then some (.int n) else none
    | _ => none
  | .bool, .word raw =>
    match Tree.wordValue? raw with
    | some (.bool b) => some (.bool b)
    | _ => none
  | .text, .quoted raw => (Quoted.text? raw).map .str
  | _, _ => none

def Tree.isNull : Tree → Bool
  | .word raw => raw = Bytes.ofString "null"
  | _ => false

def slot? (s : Slot) (t : Tree) : Option Value :=
  match s with
  | .one s => scalar? s t
  | .maybe s => if t.isNull then some .null else scalar? s t
  | .flag => scalar? .bool t
  | .texts =>
    match t with
    | .arr items => (items.mapM (scalar? .text)).map .arr
    | _ => none

/-- The fields among the members of an object, after those found. -/
def members? (fields : List Field) (found : List (String × Value)) :
    List (Bytes × Tree) → Option (List (String × Value))
  | [] => some found
  | (raw, t) :: rest =>
    match Quoted.text? raw with
    | none => none
    | some name =>
      match fields.find? (·.name = name) with
      | none => members? fields found rest
      | some f =>
        if (found.lookup name).isSome then none
        else match slot? f.slot t with
          | some v => members? fields ((name, v) :: found) rest
          | none => none

def items? : List Field → List Tree → Option (List (String × Value))
  | [], [] => some []
  | [], _ :: _ => none
  | f :: fields, [] =>
    match f.slot.leftOut?, items? fields [] with
    | some v, some rest => some ((f.name, v) :: rest)
    | _, _ => none
  | f :: fields, t :: ts =>
    match slot? f.slot t, items? fields ts with
    | some v, some rest => some ((f.name, v) :: rest)
    | _, _ => none

def decode (shape : Shape) (b : Bytes) : Option Value :=
  match shape, Tree.read b with
  | _, none => none
  | .anything, some t => t.value? Tree.deepest
  | .record fields, some (.obj members) => (members? fields [] members).bind (Field.fill fields)
  | .record fields, some (.arr items) => (items? fields items).map .obj
  | .record _, some _ => none

end Retry.Json
