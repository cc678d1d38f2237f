import Retry.Xml.Token

namespace Retry.Xml

/-- A piece of text between two tags; comments part a text into pieces. -/
inductive Piece where
  | text (raw : Bytes)
  | verbatim (raw : Bytes)
  deriving DecidableEq, Repr

inductive Tree where
  /-- All pieces between two tags. -/
  | run (pieces : List Piece)
  /-- An element: its name, what stands behind the name in its tag, and its content. -/
  | element (name attributes : Bytes) (content : List Tree)
  deriving Inhabited

namespace Tree

/-- An element that is open, with its content so far, last first. -/
structure Frame where
  name : Bytes
  attributes : Bytes
  content : List Tree

/-- What was read: pieces before the root, last first; elements that are open, innermost first; or
the whole root after the pieces before it. -/
inductive State where
  | before (pieces : List Piece)
  | inside (pieces : List Piece) (inner : Frame) (outer : List Frame)
  | finished (pieces : List Piece) (root : Tree)

/-- Put a piece behind the content so far, which stands last first. -/
def addPiece (p : Piece) : List Tree → List Tree
  | .run pieces :: content => .run (pieces ++ [p]) :: content
  | content => .run [p] :: content

def State.addPiece (p : Piece) : State → State
  | .before pieces => .before (p :: pieces)
  | .inside pieces inner outer =>
    .inside pieces { inner with content := Tree.addPiece p inner.content } outer
  | .finished pieces root => .finished pieces root

def splitName (raw : Bytes) : Bytes × Bytes := raw.span (!Token.isBlank ·)

def dropBlanksAtEnd (raw : Bytes) : Bytes := (raw.reverse.dropWhile Token.isBlank).reverse

def State.open (raw : Bytes) : State → State
  | .before pieces =>
    let (name, attributes) := splitName raw
    .inside pieces ⟨name, attributes, []⟩ []
  | .inside pieces inner outer =>
    let (name, attributes) := splitName raw
    .inside pieces ⟨name, attributes, []⟩ (inner :: outer)
  | .finished pieces root => .finished pieces root

/-- An element closes; `none` if it is not the innermost one. -/
def State.close (name : Bytes) : State → Option State
  | .before _ => none
  | .inside pieces inner outer =>
    if name = inner.name then
      let t := element inner.name inner.attributes inner.content.reverse
      match outer with
      | [] => some (.finished pieces t)
      | next :: outer => some (.inside pieces { next with content := t :: next.content } outer)
    else none
  | .finished pieces root => some (.finished pieces root)

/-- One token more. A tag that ends in a slash opens an element and closes it. -/
def State.step (s : State) : Token → Option State
  | .text raw => some (s.addPiece (.text raw))
  | .verbatim raw => some (s.addPiece (.verbatim raw))
  | .closing raw => s.close (dropBlanksAtEnd raw)
  | .opening raw =>
    if raw.getLast? = some 0x2f then
      let raw := raw.dropLast
      (s.open raw).close (splitName raw).1
    else some (s.open raw)

/-- The pieces before the root and the root, if it closes. -/
def State.root? (s : State) : List Token → Option (List Piece × Tree)
  | [] => match s with
    | .finished pieces root => some (pieces.reverse, root)
    | _ => none
  | t :: ts => match s with
    | .finished pieces root => some (pieces.reverse, root)
    | _ => (s.step t).bind fun s => s.root? ts

/-- The pieces before the root of a text, and its root; what stands behind the root is passed
over. -/
def read (b : Bytes) : Option (List Piece × Tree) := (State.before []).root? (Token.read b)

end Tree

end Retry.Xml
