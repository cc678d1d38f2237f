namespace Retry

/-- Whether an error is worth a retry, and a short reason for the log. -/
structure Verdict where
  retryable : Bool
  reason : String
  deriving DecidableEq, Repr

namespace Verdict

def transient (reason : String) : Verdict := ⟨true, reason⟩

def permanent (reason : String) : Verdict := ⟨false, reason⟩

def ofBool (retryable : Bool) : Verdict :=
  if retryable then transient "retryable" else permanent "not retryable"

def text (v : Verdict) : String :=
  (if v.retryable then "retryable" else "permanent") ++ ": " ++ v.reason

end Verdict

/-- What an error knows about itself; `none` is no opinion. -/
structure Capabilities where
  retryable : Option Bool := none
  timeout : Option Bool := none
  temporary : Option Bool := none
  deriving DecidableEq, Repr

/-- A plain word on retrying goes first, then being a timeout, then being temporary. -/
def Capabilities.verdict? (c : Capabilities) : Option Verdict :=
  match c.retryable with
  | some true => some (.transient "error reports retryable")
  | some false => some (.permanent "error reports not retryable")
  | none =>
    if c.timeout = some true then some (.transient "timeout")
    else if c.temporary = some true then some (.transient "temporary")
    else none

class Capable (ε : Type) where
  capabilities : ε → Capabilities

end Retry
