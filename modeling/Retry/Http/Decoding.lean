import Retry.Http.ContentEncoding
import Retry.Http.MediaType
import Retry.Json.Record
import Retry.Xml.Record

namespace Retry.Http

abbrev Decoder (α : Type) := Headers → Bytes → Except DecodeFault α

structure Readers (α : Type) where
  json : Bytes → Option α
  xml : Bytes → Option α

namespace Readers

variable {α : Type}

def read (r : Readers α) (format : Format) (body : Bytes) : Except DecodeFault α :=
  match format with
  | .json => (r.json body).elim (.error .json) .ok
  | .xml => (r.xml body).elim (.error .xml) .ok

/-- A media type without a format fails before anything else is looked at. An encoded body may
unpack to at most `limit` bytes. -/
def decoder (r : Readers α) (limit : Nat) : Decoder α := fun headers body =>
  let media := (mediaType? headers).getD ""
  match formatOf? media with
  | none => .error (.unsupportedType media)
  | some format =>
    match decompress headers body limit with
    | .ok plain => r.read format (plain.bytes body)
    | .error fault => .error fault

def ofShape (shape : Shape) : Readers Json.Value := ⟨Json.decode shape, Xml.decode shape⟩

end Readers

/-- How large a body may be if nothing else is said: 2 MiB. -/
def standardMaxBytes : Nat := 2 * 1024 * 1024

end Retry.Http
