import Retry.Text.Bytes

namespace Retry.Http

/-- Named values in order, a name standing in lower case. -/
structure Headers where
  fields : List (String × Bytes) := []
  deriving DecidableEq, Repr

namespace Headers

def empty : Headers := {}

/-- Put a further value under a name, after those that are there. -/
def add (h : Headers) (name : String) (value : Bytes) : Headers :=
  ⟨h.fields ++ [(String.ofList (Text.lower name.toList), value)]⟩

def ofList (fields : List (String × Bytes)) : Headers :=
  fields.foldl (fun h f => h.add f.1 f.2) empty

def values (h : Headers) (name : String) : List Bytes :=
  (h.fields.filter (·.1 = name)).map (·.2)

def first? (h : Headers) (name : String) : Option Bytes := (h.values name).head?

/-- The first value under a lower-case name as text, if that value is readable. -/
def text? (h : Headers) (name : String) : Option (List Char) :=
  (h.first? name).bind fun v => (Bytes.visible? v).map String.toList

def count (h : Headers) : Nat := h.fields.length

/-- The fields sorted by name, values of one name in order. -/
def sorted (h : Headers) : List (String × Bytes) :=
  h.fields.mergeSort fun a b => decide (a.1 ≤ b.1)

end Headers

end Retry.Http
