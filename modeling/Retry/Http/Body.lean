import Retry.Http.Exchange

namespace Retry.Http

/-- What was read of a body, and whether there was more than the limit allows. -/
structure Intake where
  bytes : Bytes
  truncated : Bool
  deriving DecidableEq, Repr

namespace Intake

/-- Read on behind `known` until the end, a fault, or more than `limit` bytes. -/
def readFrom (limit : Nat) (known : Bytes) : List Part → Task Note Fault Intake
  | [] => .note .ended (.succeed ⟨known, false⟩)
  | .chunk data :: parts =>
    let room := limit - known.length
    .note (.chunk data)
      (if room < data.length then .succeed ⟨known ++ data.take room, true⟩
      else readFrom limit (known ++ data) parts)
  | .pause length :: parts => .sleep length (readFrom limit known parts)
  | .broken fault :: _ => .note .broken (.fail fault)
  | .hang :: _ => .hang

def read (limit : Nat) (body : List Part) : Task Note Fault Intake := readFrom limit [] body

end Intake

/-- Read a body up to a limit and close it, so that its connection can be used again. A body that
breaks counts as empty. -/
def drain {ε : Type} (limit : Nat) (body : List Part) : Task Note ε Bytes :=
  (Intake.read limit body).andThen fun
    | .ok intake =>
      .noteAll [.closed, .logged (.drained intake.bytes.length)] (.succeed intake.bytes)
    | .error _ => .noteAll [.logged .drainFailed, .closed, .logged (.drained 0)] (.succeed [])

end Retry.Http
