import Retry.Fault.Message
import Retry.Journal
import Retry.Task

namespace Retry.Http

structure Request where
  method : String
  uri : String
  headers : Headers := .empty
  body : Bytes := []
  deriving DecidableEq, Repr

/-- What a reader of a body meets; behind the last part the body is at its end. -/
inductive Part where
  | chunk (data : Bytes)
  /-- The next part is late. -/
  | pause (length : Nat)
  | broken (fault : Fault)
  /-- The next part never comes. -/
  | hang

structure Response where
  status : Status
  headers : Headers
  body : List Part

/-- What happens in one attempt: a builder makes a request of the attempt's context, and a
transport answers it. -/
structure Exchange where
  build : Context → Except HttpFault Request
  send : Request → Task Empty Fault Response

inductive ResponseLog where
  | drainFailed
  | drained (bytes : Nat)
  | unexpectedStatus (status : Status) (retryable : Bool)
  deriving DecidableEq, Repr

def ResponseLog.line : ResponseLog → LogLine
  | drainFailed => ⟨"TRACE", "body drain failed", []⟩
  | drained bytes => ⟨"TRACE", "response body drained", [("bytes", toString bytes)]⟩
  | unexpectedStatus status retryable =>
    ⟨"DEBUG", "unexpected status code",
      [("status", status.text), ("retryable", toString retryable)]⟩

inductive Note where
  /-- The builder is asked for the request of an attempt. -/
  | asked (attempt : Nat) (deadline : Option Nat)
  | sent (request : Request)
  /-- A response is there, and with it a body. -/
  | opened (status : Status)
  /-- The body gave a chunk, its end, or a fault. -/
  | chunk (data : Bytes)
  | ended
  | broken
  | closed
  /-- The fallback was asked about a code that no list holds. -/
  | fellBack (status : Status)
  | decoded (headers : Headers) (body : Bytes)
  | logged (log : ResponseLog)

end Retry.Http
