import Retry.Context.Basic

namespace Retry

/-- Contexts in the order in which they were made, and the time they live in. -/
structure Family where
  line : Timeline := {}
  members : List Context := []
  deriving DecidableEq, Repr

namespace Family

/-- A step names contexts by their place in the family. -/
inductive Step where
  | background
  | child (of : Nat)
  | copy (of : Nat)
  | withTimeout (of : Nat) (timeout : Nat)
  | withDeadline (of : Nat) (deadline : Nat)
  /-- A context with the same token and no deadline. -/
  | ofToken (of : Nat)
  | cancel (of : Nat)
  | cancelAt (of : Nat) (moment : Nat)
  | advance (length : Nat)
  /-- Wait until a context is done, but no longer than `patience`. -/
  | await (of : Nat) (patience : Nat)
  deriving DecidableEq, Repr

def extend (f : Family) (of : Nat) (derive : Context → Timeline → Context × Timeline) : Family :=
  match f.members[of]? with
  | some c =>
    let (c, line) := derive c f.line
    ⟨line, f.members ++ [c]⟩
  | none => f

/-- What the waiting for a context gives, and when it ends; a context whose signal comes in the very
moment in which the patience ends is seen. -/
def await (f : Family) (c : Context) (patience : Nat) : Family × Option Reason :=
  let last := Duration.tick (f.line.now + patience)
  match c.signalAt f.line with
  | some moment =>
    if moment ≤ last then
      let line := f.line.advanceTo moment
      ({ f with line }, c.signal line)
    else ({ f with line := f.line.advanceTo last }, none)
  | none => ({ f with line := f.line.advanceTo last }, none)

/-- Take a step; only waiting gives a reason. -/
def step (f : Family) : Step → Family × Option Reason
  | .background =>
    let (c, line) := Context.background f.line
    (⟨line, f.members ++ [c]⟩, none)
  | .child of => (f.extend of Context.child, none)
  | .copy of => (f.extend of fun c l => (c, l), none)
  | .withTimeout of timeout => (f.extend of fun c l => c.withTimeout timeout l, none)
  | .withDeadline of deadline => (f.extend of fun c l => c.withDeadline deadline l, none)
  | .ofToken of => (f.extend of fun c l => ({ token := c.token }, l), none)
  | .cancel of =>
    match f.members[of]? with
    | some c => ({ f with line := c.cancel f.line }, none)
    | none => (f, none)
  | .cancelAt of moment =>
    match f.members[of]? with
    | some c => ({ f with line := f.line.plan moment c.token }, none)
    | none => (f, none)
  | .advance length => ({ f with line := f.line.advanceTo (f.line.now + length) }, none)
  | .await of patience =>
    match f.members[of]? with
    | some c => f.await c patience
    | none => (f, none)

/-- The family after each step, with the reason that the step gave. -/
def run (f : Family) : List Step → List (Family × Option Reason)
  | [] => []
  | s :: rest =>
    let (g, reason) := f.step s
    (g, reason) :: g.run rest

end Family

end Retry
