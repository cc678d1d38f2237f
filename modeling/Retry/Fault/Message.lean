import Retry.Fault.Basic
import Retry.Text.Quoted

namespace Retry

def IoKind.message : IoKind → String
  | notFound => "entity not found"
  | permissionDenied => "permission denied"
  | connectionRefused => "connection refused"
  | connectionReset => "connection reset"
  | hostUnreachable => "host unreachable"
  | networkUnreachable => "network unreachable"
  | connectionAborted => "connection aborted"
  | notConnected => "not connected"
  | addrInUse => "address in use"
  | addrNotAvailable => "address not available"
  | networkDown => "network down"
  | brokenPipe => "broken pipe"
  | alreadyExists => "entity already exists"
  | wouldBlock => "operation would block"
  | invalidInput => "invalid input parameter"
  | invalidData => "invalid data"
  | timedOut => "timed out"
  | writeZero => "write zero"
  | interrupted => "operation interrupted"
  | unsupported => "unsupported"
  | unexpectedEof => "unexpected end of file"
  | outOfMemory => "out of memory"
  | other => "other error"

def Rejection.message (r : Rejection) : String := "unexpected status code " ++ r.status.text

mutual

/-- Whether a text made elsewhere belongs to an error, its payload or its chain. -/
def IoFault.isForeign : IoFault → Bool
  | .plain _ => false
  | .system _ => true
  | .carrying _ payload => payload.isForeign

def Fault.isForeign : Fault → Bool
  | .message _ => false
  | .wrapped _ source => source.isForeign
  | .io fault => fault.isForeign
  | .context _ => false
  | .transport source => source.isForeign
  | .client _ => true
  | .clientOver _ _ => true
  | .decode fault => fault.isForeign
  | .http fault => fault.isForeign

def DecodeFault.isForeign : DecodeFault → Bool
  | .json => true
  | .xml => true
  | .decompress _ => true
  | .custom fault => fault.isForeign
  | .unsupportedType _ => false
  | .tooLarge _ => false
  | .unsupportedEncoding _ => false

def HttpFault.isForeign : HttpFault → Bool
  | .transport source => source.isForeign
  | .decode fault => fault.isForeign
  | .status _ => false
  | .request _ => false
  | .context _ => false

end

mutual

def IoFault.text : IoFault → String
  | .plain kind => kind.message
  | .system _ => ""
  | .carrying _ payload => payload.text

def Fault.text : Fault → String
  | .message text => text
  | .wrapped text _ => text
  | .io fault => fault.text
  | .context reason => reason.message
  | .transport source => "transport error: " ++ source.text
  | .client _ => ""
  | .clientOver _ _ => ""
  | .decode fault => fault.text
  | .http fault => fault.text

def DecodeFault.text : DecodeFault → String
  | .unsupportedType media => "unsupported content type " ++ Text.quoted media
  | .tooLarge limit => "response body exceeds " ++ toString limit ++ " bytes"
  | .json => "invalid json body: "
  | .xml => "invalid xml body: "
  | .unsupportedEncoding coding => "unsupported content encoding " ++ Text.quoted coding
  | .decompress fault => "failed to decompress body: " ++ fault.text
  | .custom fault => fault.text

def HttpFault.text : HttpFault → String
  | .transport source => "transport error: " ++ source.text
  | .status rejection => rejection.message
  | .decode fault => "decode failed: " ++ fault.text
  | .request fault => "failed to build request: " ++ fault.message
  | .context reason => reason.message

end

def Fault.message? (f : Fault) : Option String := if f.isForeign then none else some f.text

def DecodeFault.message? (f : DecodeFault) : Option String :=
  if f.isForeign then none else some f.text

def HttpFault.message? (f : HttpFault) : Option String := if f.isForeign then none else some f.text

end Retry
