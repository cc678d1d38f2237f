import Retry.Json.Number
import Retry.Json.Quoted
import Retry.Json.Token

namespace Retry.Json

inductive Tree where
  | word (raw : Bytes)
  | quoted (raw : Bytes)
  | arr (items : List Tree)
  | obj (members : List (Bytes × Tree))
  deriving Inhabited

namespace Tree

/-- Something open, with what is in it so far, last first. -/
inductive Frame where
  | items (known : List Tree)
  | members (known : List (Bytes × Tree)) (name : Bytes)

inductive State where
  | value (stack : List Frame)
  /-- An item, or the end of an array without any. -/
  | firstItem (stack : List Frame)
  | nextItem (known : List Tree) (stack : List Frame)
  /-- A member, or the end of an object without any. -/
  | firstName (stack : List Frame)
  | nextName (known : List (Bytes × Tree)) (stack : List Frame)
  | colon (known : List (Bytes × Tree)) (name : Bytes) (stack : List Frame)
  | nextMember (known : List (Bytes × Tree)) (stack : List Frame)
  | finished (tree : Tree)

def State.give (t : Tree) : List Frame → State
  | [] => .finished t
  | .items known :: stack => .nextItem (t :: known) stack
  | .members known name :: stack => .nextMember ((name, t) :: known) stack

def isName (raw : Bytes) : Bool :=
  ["null", "true", "false"].any fun name => Bytes.ofString name = raw

def State.begin (stack : List Frame) : Token → Option State
  | .openArr => some (.firstItem stack)
  | .openObj => some (.firstName stack)
  | .quoted raw => if Quoted.isWellFormed raw then some (State.give (.quoted raw) stack) else none
  | .word raw =>
    if isName raw || (Number.read raw).isSome then some (State.give (.word raw) stack) else none
  | _ => none

def State.step : State → Token → Option State
  | .value stack, t => State.begin stack t
  | .firstItem stack, .closeArr => some (State.give (.arr []) stack)
  | .firstItem stack, t => State.begin (.items [] :: stack) t
  | .nextItem known stack, .comma => some (.value (.items known :: stack))
  | .nextItem known stack, .closeArr => some (State.give (.arr known.reverse) stack)
  | .firstName stack, .closeObj => some (State.give (.obj []) stack)
  | .firstName stack, .quoted raw =>
    if Quoted.isWellFormed raw then some (.colon [] raw stack) else none
  | .nextName known stack, .quoted raw =>
    if Quoted.isWellFormed raw then some (.colon known raw stack) else none
  | .colon known name stack, .colon => some (.value (.members known name :: stack))
  | .nextMember known stack, .comma => some (.nextName known stack)
  | .nextMember known stack, .closeObj => some (State.give (.obj known.reverse) stack)
  | _, _ => none

def State.steps (s : State) : List Token → Option State
  | [] => some s
  | t :: ts =>
    match s.step t with
    | some s => s.steps ts
    | none => none

/-- The tree of a text that is one value and nothing else. -/
def read (b : Bytes) : Option Tree :=
  match (Token.read b).bind (State.value []).steps with
  | some (.finished t) => some t
  | _ => none

def wordValue? (raw : Bytes) : Option Value :=
  if raw = Bytes.ofString "null" then some .null
  else if raw = Bytes.ofString "true" then some (.bool true)
  else if raw = Bytes.ofString "false" then some (.bool false)
  else (Number.read raw).bind Number.value?

/-- Put a value under a name, in place of one that is there. -/
def put (name : String) (v : Value) (fields : List (String × Value)) : List (String × Value) :=
  if fields.any (·.1 = name) then fields.map fun f => if f.1 = name then (name, v) else f
  else fields ++ [(name, v)]

mutual

/-- The value of a tree in which at most `levels` arrays and objects stand in one another. -/
def value? (levels : Nat) : Tree → Option Value
  | .word raw => wordValue? raw
  | .quoted raw => (Quoted.text? raw).map .str
  | .arr items => if levels = 0 then none else (values? (levels - 1) items).map .arr
  | .obj members => if levels = 0 then none else (fields? (levels - 1) [] members).map .obj

def values? (levels : Nat) : List Tree → Option (List Value)
  | [] => some []
  | t :: ts =>
    match value? levels t, values? levels ts with
    | some v, some vs => some (v :: vs)
    | _, _ => none

def fields? (levels : Nat) (known : List (String × Value)) :
    List (Bytes × Tree) → Option (List (String × Value))
  | [] => some known
  | (raw, t) :: members =>
    match Quoted.text? raw, value? levels t with
    | some name, some v => fields? levels (put name v known) members
    | _, _ => none

end

/-- How deep arrays and objects may stand in one another in a value. -/
def deepest : Nat := 127

end Tree

end Retry.Json
