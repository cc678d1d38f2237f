import Retry.Json.Value

namespace Retry

/-- What a single field holds: a whole number in a range, a truth value, or a text. -/
inductive Scalar where
  | number (least greatest : Int)
  | bool
  | text
  deriving DecidableEq, Repr

inductive Slot where
  /-- It must be there. -/
  | one (s : Scalar)
  /-- It is null unless it is there. -/
  | maybe (s : Scalar)
  /-- It is `false` unless it is there. -/
  | flag
  /-- It holds any number of texts. -/
  | texts
  deriving DecidableEq, Repr

structure Field where
  name : String
  slot : Slot
  deriving DecidableEq, Repr

inductive Shape where
  | anything
  | record (fields : List Field)
  deriving DecidableEq, Repr

namespace Slot

def absent? : Slot → Option Json.Value
  | one _ => none
  | maybe _ => some .null
  | flag => some (.bool false)
  | texts => some (.arr [])

/-- The value of a field that is not there in a list of all fields: only a field with a value of
its own may be left out. -/
def leftOut? : Slot → Option Json.Value
  | flag => some (.bool false)
  | texts => some (.arr [])
  | _ => none

end Slot

/-- The values of fields that were found, with those of the fields that were not. -/
def Field.fill (fields : List Field) (found : List (String × Json.Value)) : Option Json.Value :=
  (fields.mapM fun f => ((found.lookup f.name).or f.slot.absent?).map fun v => (f.name, v)).map .obj

def Scalar.unsigned32 : Scalar := .number 0 (1 <<< 32 - 1 : Nat)

def Scalar.signed64 : Scalar := .number (-(1 <<< 63 : Nat)) (1 <<< 63 - 1 : Nat)

end Retry
