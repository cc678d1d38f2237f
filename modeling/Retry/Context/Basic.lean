import Retry.Reason
import Retry.Timeline

namespace Retry

/-- The token and the deadline under which a piece of work runs. -/
structure Context where
  token : Token
  deadline : Option Nat := none
  deriving DecidableEq, Repr

namespace Context

/-- A context of its own, without a deadline. -/
def background (l : Timeline) : Context × Timeline :=
  let (token, l) := l.root
  ({ token }, l)

def child (c : Context) (l : Timeline) : Context × Timeline :=
  let (token, l) := l.derive c.token
  ({ token, deadline := c.deadline }, l)

/-- The earlier of two deadlines, either of which may be missing. -/
def earlier (a : Option Nat) (b : Nat) : Nat :=
  match a with
  | some a => min a b
  | none => b

/-- A context below `c` that ends at `deadline`, or at the deadline of `c` if that is sooner. -/
def withDeadline (c : Context) (deadline : Nat) (l : Timeline) : Context × Timeline :=
  let (token, l) := l.derive c.token
  ({ token, deadline := some (earlier c.deadline deadline) }, l)

/-- A context below `c` that ends `timeout` from now; where no clock can show that moment, it has
no deadline of its own. -/
def withTimeout (c : Context) (timeout : Nat) (l : Timeline) : Context × Timeline :=
  match Duration.later? l.now timeout with
  | some deadline => c.withDeadline deadline l
  | none => c.child l

def cancel (c : Context) (l : Timeline) : Timeline := l.cancel c.token

/-- Why the context is done, if it is: a cancellation goes before a missed deadline. -/
def err (c : Context) (l : Timeline) : Option Reason :=
  if l.isCancelled c.token then some .cancelled
  else match c.deadline with
    | some deadline => if deadline ≤ l.now then some .deadlineExceeded else none
    | none => none

def isDone (c : Context) (l : Timeline) : Bool := (c.err l).isSome

/-- The earlier of two moments, either of which may never come. -/
def sooner : Option Nat → Option Nat → Option Nat
  | some a, some b => some (min a b)
  | some a, none => some a
  | none, b => b

/-- What one who waits for the context finds when he looks: that it was cancelled, or else that its
timer has gone off, which it does on a whole millisecond. -/
def signal (c : Context) (l : Timeline) : Option Reason :=
  if l.isCancelled c.token then some .cancelled
  else match c.deadline with
    | some deadline => if Duration.tick deadline ≤ l.now then some .deadlineExceeded else none
    | none => none

/-- The moment at which a wait for the context ends, if time passes and nobody but the planned
cancellations intervenes. -/
def signalAt (c : Context) (l : Timeline) : Option Nat :=
  if (c.signal l).isSome then some l.now
  else sooner (l.cancelledAt c.token) (c.deadline.map Duration.tick)

end Context

end Retry
