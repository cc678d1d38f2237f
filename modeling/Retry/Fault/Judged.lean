import Retry.Fault.Basic

namespace Retry

namespace IoKind

/-- The kind of a system error number; numbers that are never transient stay unsorted. -/
def ofNumber : Nat → IoKind
  | 104 => connectionReset
  | 103 => connectionAborted
  | 107 => notConnected
  | 11 => wouldBlock
  | 110 => timedOut
  | 4 => interrupted
  | 32 => brokenPipe
  | _ => other

/-- The reason to retry after an error of a transient kind. -/
def transient? : IoKind → Option String
  | connectionReset => some "connection reset"
  | connectionAborted => some "connection aborted"
  | notConnected => some "not connected"
  | wouldBlock => some "resource temporarily unavailable"
  | timedOut => some "timed out"
  | interrupted => some "interrupted"
  | brokenPipe => some "broken pipe"
  | _ => none

end IoKind

namespace IoFault

def kind : IoFault → IoKind
  | plain kind => kind
  | system number => IoKind.ofNumber number
  | carrying kind _ => kind

/-- Only the transient kinds are spoken for. -/
def verdict? (f : IoFault) : Option Verdict := f.kind.transient?.map .transient

end IoFault

def ClientFault.verdict? : ClientFault → Option Verdict
  | timeout => some (.transient "timeout")
  | connect => some (.transient "connect failed")
  | other => none

namespace Fault

/-- What a fault says of itself as an input or output error. -/
def ioVerdict? : Fault → Option Verdict
  | io fault => fault.verdict?
  | _ => none

/-- What a fault says of itself as a failure of a client or the end of a context. -/
def causeVerdict? : Fault → Option Verdict
  | client fault => fault.verdict?
  | clientOver fault _ => fault.verdict?
  | context reason => reason.capabilities.verdict?
  | _ => none

/-- The first transient input or output error in the chain speaks. -/
def chainVerdict? (f : Fault) : Option Verdict := f.chain.findSome? ioVerdict?

/-- A failed transport over the source `f`: a client failure or a done context anywhere in the
chain speaks before any input or output error does. -/
def transportVerdict (f : Fault) : Verdict :=
  ((f.chain.findSome? causeVerdict?).or f.chainVerdict?).getD (.permanent "transport error")

end Fault

namespace HttpFault

/-- The verdict of a retrier that is given no classifier. -/
def verdict : HttpFault → Verdict
  | transport source => source.transportVerdict
  | status rejection =>
    let reason := "status " ++ toString rejection.status.code
    if rejection.retryable then .transient reason else .permanent reason
  | decode _ => .permanent "decode failed"
  | request _ => .permanent "invalid request"
  | context reason => reason.capabilities.verdict?.getD (.permanent "context done")

def capabilities (f : HttpFault) : Capabilities where
  retryable := some f.verdict.retryable
  timeout := match f with
    | context reason => reason.capabilities.timeout
    | _ => none

def status? : HttpFault → Option Http.Status
  | status rejection => some rejection.status
  | _ => none

/-- Faults that end a run at once, unless the classifier finds them worth a retry. -/
def isTerminal : HttpFault → Bool
  | status rejection => rejection.status.isPermanent
  | decode _ => true
  | request _ => true
  | context reason => reason = .cancelled
  | transport _ => false

end HttpFault

instance : Capable HttpFault := ⟨HttpFault.capabilities⟩

end Retry
