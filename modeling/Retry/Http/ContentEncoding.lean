import Retry.Fault.Basic
import Retry.Gzip.Member

namespace Retry.Http

/-- The coding that the first field names, in lower case and without blanks around it. -/
def coding? (h : Headers) : Option (List Char) :=
  (h.text? "content-encoding").map fun cs => Text.lower (Text.trim cs)

inductive Plain where
  /-- There was none, and the body is passed on. -/
  | asIs
  | unpacked (data : Bytes)
  deriving DecidableEq, Repr

def Plain.bytes (body : Bytes) : Plain → Bytes
  | asIs => body
  | unpacked data => data

def ioFaultOf : Gzip.Fault → IoFault
  | .corrupt => .plain .invalidInput
  | .truncated => .plain .unexpectedEof

/-- Unpack a gzip body, but never more than `limit` bytes of it; pass a body on that names no
coding, or that names it unreadably. -/
def decompress (h : Headers) (body : Bytes) (limit : Nat) : Except DecodeFault Plain :=
  match coding? h with
  | none => .ok .asIs
  | some coding =>
    if coding = [] || coding = "identity".toList then .ok .asIs
    else if coding = "gzip".toList || coding = "x-gzip".toList then
      match Gzip.unpack limit body with
      | .ok data => .ok (.unpacked data)
      | .error .tooLarge => .error (.tooLarge limit)
      | .error (.faulty fault) => .error (.decompress (ioFaultOf fault))
    else .error (.unsupportedEncoding (String.ofList coding))

end Retry.Http
