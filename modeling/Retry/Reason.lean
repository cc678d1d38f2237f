import Retry.Verdict

namespace Retry

inductive Reason where
  /-- The context, or one it was derived from, was cancelled. -/
  | cancelled
  /-- The deadline passed. -/
  | deadlineExceeded
  deriving DecidableEq, Repr

namespace Reason

def message : Reason → String
  | cancelled => "context cancelled"
  | deadlineExceeded => "context deadline exceeded"

/-- A cancellation is final; a missed deadline is a timeout like any other. -/
def capabilities : Reason → Capabilities
  | cancelled => { retryable := some false, timeout := some false }
  | deadlineExceeded => { timeout := some true }

end Reason

instance : Capable Reason := ⟨Reason.capabilities⟩

/-- Error types that a context's reason can be turned into. -/
class OfReason (ε : Type) where
  ofReason : Reason → ε

instance : OfReason Reason := ⟨id⟩

end Retry
