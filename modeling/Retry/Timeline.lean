import Retry.Duration

namespace Retry

/-- A token names its way up to the root of its tree, its own number first. -/
structure Token where
  path : List Nat
  deriving DecidableEq, Repr

namespace Token

def root (number : Nat) : Token := ⟨[number]⟩

def child (t : Token) (number : Nat) : Token := ⟨number :: t.path⟩

/-- Whether `t` is `s` or stands above it. -/
def covers (t s : Token) : Bool := t.path.isSuffixOf s.path

theorem covers_iff {t s : Token} : t.covers s = true ↔ t.path <:+ s.path :=
  List.isSuffixOf_iff_suffix

theorem covers_refl (t : Token) : t.covers t = true := covers_iff.mpr (List.suffix_refl _)

theorem covers_child (t : Token) (n : Nat) : t.covers (t.child n) = true :=
  covers_iff.mpr (List.suffix_cons _ _)

theorem covers_trans {t s r : Token} (h : t.covers s = true) (h' : s.covers r = true) :
    t.covers r = true :=
  covers_iff.mpr ((covers_iff.mp h).trans (covers_iff.mp h'))

end Token

/-- A cancellation that someone else will make at some moment. -/
structure Plan where
  moment : Nat
  token : Token
  deriving DecidableEq, Repr

/-- Where a program stands in time. -/
structure Timeline where
  now : Nat := 0
  /-- Tokens that were cancelled. -/
  cancelled : List Token := []
  planned : List Plan := []
  /-- How many tokens have been given out. -/
  issued : Nat := 0
  deriving DecidableEq, Repr

namespace Timeline

/-- A token is cancelled when it or one above it was. -/
def isCancelled (l : Timeline) (t : Token) : Bool := l.cancelled.any (·.covers t)

def cancel (l : Timeline) (t : Token) : Timeline := { l with cancelled := t :: l.cancelled }

def plan (l : Timeline) (moment : Nat) (t : Token) : Timeline :=
  { l with planned := ⟨moment, t⟩ :: l.planned }

/-- Go on to `moment`, making the cancellations planned until then; time never runs back. -/
def advanceTo (l : Timeline) (moment : Nat) : Timeline :=
  let now := max l.now moment
  { l with
    now
    cancelled := (l.planned.filter (·.moment ≤ now)).map (·.token) ++ l.cancelled
    planned := l.planned.filter (now < ·.moment) }

def derive (l : Timeline) (t : Token) : Token × Timeline :=
  (t.child l.issued, { l with issued := l.issued + 1 })

def root (l : Timeline) : Token × Timeline :=
  (Token.root l.issued, { l with issued := l.issued + 1 })

/-- The earliest moment from now on at which someone else cancels `t`. -/
def cancelledAt (l : Timeline) (t : Token) : Option Nat :=
  (((l.planned.filter (·.token.covers t)).map (·.moment)).min?).map (max l.now)

theorem now_advanceTo (l : Timeline) (m : Nat) : (l.advanceTo m).now = max l.now m := rfl

theorem isCancelled_cancel (l : Timeline) (t s : Token) :
    (l.cancel t).isCancelled s = (t.covers s || l.isCancelled s) := by
  simp [cancel, isCancelled]

end Timeline

end Retry
