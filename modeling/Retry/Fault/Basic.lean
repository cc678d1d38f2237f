import Retry.Reason
import Retry.Http.Headers
import Retry.Http.Status

namespace Retry

inductive IoKind where
  | notFound | permissionDenied | connectionRefused | connectionReset | hostUnreachable
  | networkUnreachable | connectionAborted | notConnected | addrInUse | addrNotAvailable
  | networkDown | brokenPipe | alreadyExists | wouldBlock | invalidInput | invalidData | timedOut
  | writeZero | interrupted | unsupported | unexpectedEof | outOfMemory | other
  deriving DecidableEq, Repr

/-- What is wrong with a request that could not be built. -/
inductive RequestFault where
  | method | uri | emptyUri | headerName | headerValue | status
  deriving DecidableEq, Repr

/-- A failure inside an HTTP client, told apart only as far as it matters for a retry. -/
inductive ClientFault where
  | timeout | connect | other
  deriving DecidableEq, Repr

/-- A response whose status was not accepted: the status, whether it was judged worth a retry,
the headers, and the drained body. -/
structure Rejection where
  status : Http.Status
  retryable : Bool
  headers : Http.Headers
  body : Bytes
  deriving DecidableEq, Repr

mutual

inductive IoFault where
  | plain (kind : IoKind)
  /-- An error number of the system. -/
  | system (number : Nat)
  /-- An error of some kind that carries another one. -/
  | carrying (kind : IoKind) (payload : Fault)

inductive Fault where
  | message (text : String)
  | wrapped (text : String) (source : Fault)
  | io (fault : IoFault)
  | context (reason : Reason)
  /-- A failure of the network before a response. -/
  | transport (source : Fault)
  | client (fault : ClientFault)
  /-- A failure of a client that has a source. -/
  | clientOver (fault : ClientFault) (source : Fault)
  | decode (fault : DecodeFault)
  | http (fault : HttpFault)

/-- An accepted response whose body gave no value. -/
inductive DecodeFault where
  | unsupportedType (media : String)
  | tooLarge (limit : Nat)
  | json
  | xml
  | unsupportedEncoding (coding : String)
  | decompress (fault : IoFault)
  | custom (fault : Fault)

inductive HttpFault where
  | transport (source : Fault)
  | status (rejection : Rejection)
  | decode (fault : DecodeFault)
  | request (fault : RequestFault)
  | context (reason : Reason)

end

deriving instance DecidableEq for IoFault, Fault, DecodeFault, HttpFault

instance : Inhabited IoFault := ⟨.plain .other⟩

instance : Inhabited Fault := ⟨.io default⟩

instance : Inhabited DecodeFault := ⟨.custom default⟩

instance : Inhabited HttpFault := ⟨.transport default⟩

instance : OfReason HttpFault := ⟨.context⟩

def RequestFault.message : RequestFault → String
  | method => "invalid HTTP method"
  | uri => "invalid uri character"
  | emptyUri => "empty string"
  | headerName => "invalid HTTP header name"
  | headerValue => "failed to parse header value"
  | status => "invalid status code"

mutual

/-- The causes of an input or output error: a payload is passed over for its own source. -/
def IoFault.causes : IoFault → List Fault
  | .plain _ => []
  | .system _ => []
  | .carrying _ payload => payload.causes

/-- The causes of a fault, its direct source first. -/
def Fault.causes : Fault → List Fault
  | .message _ => []
  | .wrapped _ source => source :: source.causes
  | .io fault => fault.causes
  | .context _ => []
  | .transport source => source :: source.causes
  | .client _ => []
  | .clientOver _ source => source :: source.causes
  | .decode fault => fault.causes
  | .http fault => fault.causes

def DecodeFault.causes : DecodeFault → List Fault
  | .decompress fault => .io fault :: fault.causes
  | _ => []

/-- A transport failure shows through, so its source is the direct one; a status and a done
context have none. -/
def HttpFault.causes : HttpFault → List Fault
  | .transport source => source :: source.causes
  | .decode fault => .decode fault :: fault.causes
  | .request fault => [.message fault.message]
  | .status _ => []
  | .context _ => []

end

def Fault.chain (f : Fault) : List Fault := f :: f.causes

end Retry
