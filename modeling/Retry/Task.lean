import Retry.Context.Basic

namespace Retry

/-- Work that ends with a value `α` or an error `ε` and leaves notes `η` on its way. -/
inductive Task (η ε α : Type) where
  | finish (result : Except ε α)
  | note (what : η) (next : Task η ε α)
  | sleep (length : Nat) (next : Task η ε α)
  | cancel (token : Token) (next : Task η ε α)
  /-- Wait until a context is done and go on with the reason. -/
  | untilDone (ctx : Context) (next : Reason → Task η ε α)
  /-- Never end. -/
  | hang

namespace Task

variable {η ε ε' α β : Type}

/-- Go on with the result of `t`, be it a value or an error. -/
def andThen (t : Task η ε α) (k : Except ε α → Task η ε' β) : Task η ε' β :=
  match t with
  | finish r => k r
  | note what next => note what (next.andThen k)
  | sleep length next => sleep length (next.andThen k)
  | cancel token next => cancel token (next.andThen k)
  | untilDone ctx next => untilDone ctx fun r => (next r).andThen k
  | hang => hang

/-- Go on with the value of `t`; an error is the end. -/
def bind (t : Task η ε α) (k : α → Task η ε β) : Task η ε β :=
  t.andThen fun
    | .ok a => k a
    | .error e => finish (.error e)

def succeed (a : α) : Task η ε α := finish (.ok a)

def fail (e : ε) : Task η ε α := finish (.error e)

def mapError (f : ε → ε') (t : Task η ε α) : Task η ε' α :=
  t.andThen fun r => finish (r.mapError f)

def noteAll (notes : List η) (next : Task η ε α) : Task η ε α := notes.foldr note next

/-- Work that leaves no notes, as part of work that does. -/
def quiet : Task Empty ε α → Task η ε α
  | finish r => finish r
  | note what _ => what.elim
  | sleep length next => sleep length next.quiet
  | cancel token next => cancel token next.quiet
  | untilDone ctx next => untilDone ctx fun r => (next r).quiet
  | hang => hang

end Task

inductive Ending (ε α : Type) where
  | finished (result : Except ε α)
  /-- The context's signal came before the end of the work. -/
  | cutOff (reason : Reason)
  /-- Neither will ever come. -/
  | stuck

/-- What watched work leaves: its end, its notes with the timeline at each, and the time after it.
-/
structure Played (η ε α : Type) where
  ending : Ending ε α
  notes : List (Timeline × η)
  line : Timeline

namespace Task

variable {η ε α : Type}

/-- The work stops here because the context's signal comes at `moment`. -/
def cutAt (ctx : Context) (moment : Nat) (l : Timeline) : Played η ε α :=
  let l := l.advanceTo moment
  match ctx.signal l with
  | some reason => ⟨.cutOff reason, [], l⟩
  | none => ⟨.stuck, [], l⟩

/-- Do the work under a context that cuts it off when its signal comes strictly first. -/
def play (ctx : Context) : Task η ε α → Timeline → Played η ε α
  | finish r, l => ⟨.finished r, [], l⟩
  | note what next, l =>
    let p := next.play ctx l
    { p with notes := (l, what) :: p.notes }
  | cancel token next, l => next.play ctx (l.cancel token)
  | sleep length next, l =>
    let wake := Duration.tick (l.now + length)
    match ctx.signalAt l with
    | some moment =>
      if moment < wake then cutAt ctx moment l
      else next.play ctx (l.advanceTo wake)
    | none => next.play ctx (l.advanceTo wake)
  | untilDone other next, l =>
    match other.signalAt l, ctx.signalAt l with
    | some wake, some moment =>
      if moment < wake then cutAt ctx moment l
      else
        let l := l.advanceTo wake
        match other.signal l with
        | some reason => (next reason).play ctx l
        | none => ⟨.stuck, [], l⟩
    | some wake, none =>
      let l := l.advanceTo wake
      match other.signal l with
      | some reason => (next reason).play ctx l
      | none => ⟨.stuck, [], l⟩
    | none, some moment => cutAt ctx moment l
    | none, none => ⟨.stuck, [], l⟩
  | hang, l =>
    match ctx.signalAt l with
    | some moment => cutAt ctx moment l
    | none => ⟨.stuck, [], l⟩

end Task

end Retry
