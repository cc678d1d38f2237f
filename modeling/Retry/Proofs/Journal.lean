import Mathlib.Control.Monad.Basic
import Retry.Journal

namespace Retry

deriving instance DecidableEq for Event

deriving instance DecidableEq for Entry

namespace Event

variable {η ε α : Type}

def invocation? : Event η ε α → Option Nat
  | invoked attempt _ _ => some attempt
  | _ => none

def result? : Event η ε α → Option (Except ε α)
  | ended result => some result
  | _ => none

def verdict? : Event η ε α → Option Verdict
  | judged _ _ verdict => some verdict
  | _ => none

end Event

namespace Entry

variable {η ε α β : Type}

/-- What the entries of a journal have to say, in order. -/
def pick (f : Event η ε α → Option β) (journal : List (Entry η ε α)) : List β :=
  journal.filterMap fun e => f e.event

@[simp] theorem pick_nil (f : Event η ε α → Option β) : pick f [] = [] := rfl

theorem pick_singleton (f : Event η ε α → Option β) (e : Entry η ε α) :
    pick f [e] = (f e.event).toList := by
  cases h : f e.event <;> simp [pick, h]

@[simp] theorem pick_append (f : Event η ε α → Option β) (j k : List (Entry η ε α)) :
    pick f (j ++ k) = pick f j ++ pick f k := List.filterMap_append

@[simp] theorem pick_allAt (f : Event η ε α → Option β) (l : Timeline)
    (events : List (Event η ε α)) : pick f (allAt l events) = events.filterMap f := by
  simp only [pick, allAt, List.filterMap_map]
  rfl

theorem pick_eq_nil {f : Event η ε α → Option β} {journal : List (Entry η ε α)}
    (h : ∀ e ∈ journal, f e.event = none) : pick f journal = [] :=
  List.filterMap_eq_nil_iff.mpr h

/-- The failures recorded in a journal, each told by whether it was retryable. -/
def history (journal : List (Entry η ε α)) : List Bool :=
  (pick Event.verdict? journal).map (·.retryable)

@[simp] theorem history_append (j k : List (Entry η ε α)) :
    history (j ++ k) = history j ++ history k := by
  simp only [history, pick_append, List.map_append]

end Entry

end Retry
