import Retry.Proofs.Task

namespace Retry

namespace Ending

variable {ε α : Type}

/-- The end of work whose error is turned into another. -/
def mapError {ε' : Type} (f : ε → ε') : Ending ε α → Ending ε' α
  | finished r => finished (r.mapError f)
  | cutOff reason => cutOff reason
  | stuck => stuck

/-- The end of work that came to no result: it was cut off, or it never ends. -/
def without : Option Reason → Ending ε α
  | some reason => cutOff reason
  | none => stuck

theorem finished_or_without (ending : Ending ε α) :
    (∃ r, ending = .finished r) ∨ ∃ cut, ending = .without cut := by
  cases ending with
  | finished r => exact Or.inl ⟨r, rfl⟩
  | cutOff reason => exact Or.inr ⟨some reason, rfl⟩
  | stuck => exact Or.inr ⟨none, rfl⟩

theorem without_ne_finished (cut : Option Reason) (r : Except ε α) :
    (without cut : Ending ε α) ≠ .finished r := by
  cases cut <;> nofun

end Ending

namespace Played

variable {η ε ε' α β : Type}

/-- What is left when work is followed by other work that depends on its result. -/
def andThen (p : Played η ε α) (k : Except ε α → Timeline → Played η ε' β) : Played η ε' β :=
  match p.ending with
  | .finished r => { k r p.line with notes := p.notes ++ (k r p.line).notes }
  | .cutOff reason => ⟨.cutOff reason, p.notes, p.line⟩
  | .stuck => ⟨.stuck, p.notes, p.line⟩

variable {p : Played η ε α} {k : Except ε α → Timeline → Played η ε' β}

theorem andThen_of_finished {r : Except ε α} (h : p.ending = .finished r) :
    p.andThen k = { k r p.line with notes := p.notes ++ (k r p.line).notes } := by
  simp only [andThen, h]

theorem andThen_of_without {cut : Option Reason} (h : p.ending = .without cut) :
    p.andThen k = ⟨.without cut, p.notes, p.line⟩ := by
  cases cut <;> simp only [andThen, h, Ending.without]

/-- A note before work that is followed by other work is a note before both. -/
theorem andThen_note (p : Played η ε α) (note : Timeline × η)
    (k : Except ε α → Timeline → Played η ε' β) :
    ({ p with notes := note :: p.notes } : Played η ε α).andThen k =
      { p.andThen k with notes := note :: (p.andThen k).notes } := by
  cases h : p.ending <;> simp only [andThen, h, List.cons_append]

/-- What work leaves whose notes nobody keeps. -/
def quiet (p : Played Empty ε α) : Played η ε α := ⟨p.ending, [], p.line⟩

/-- Wait until `wake`, if that ever comes, and go on, unless the context is done before. -/
def await (ctx : Context) (wake : Option Nat) (l : Timeline) (k : Timeline → Played η ε α) :
    Played η ε α :=
  match wake, ctx.signalAt l with
  | some wake, some moment =>
    if moment < wake then Task.cutAt ctx moment l else k (l.advanceTo wake)
  | some wake, none => k (l.advanceTo wake)
  | none, some moment => Task.cutAt ctx moment l
  | none, none => ⟨.stuck, [], l⟩

theorem cutAt_eq (ctx : Context) (moment : Nat) (l : Timeline) :
    (Task.cutAt ctx moment l : Played η ε α) =
      ⟨.without (ctx.signal (l.advanceTo moment)), [], l.advanceTo moment⟩ := by
  unfold Task.cutAt
  cases hreason : ctx.signal (l.advanceTo moment) <;> simp only [hreason, Ending.without]

variable {η' : Type}

/-- What leaves work alone that was broken off can be done before a wait as well as after it. -/
theorem await_comm {f : Played η ε α → Played η' ε' β}
    (hf : ∀ cut line, f ⟨.without cut, [], line⟩ = ⟨.without cut, [], line⟩) (ctx : Context)
    (wake : Option Nat) (l : Timeline) (k : Timeline → Played η ε α) :
    f (await ctx wake l k) = await ctx wake l fun line => f (k line) := by
  have hcut : ∀ moment, f (Task.cutAt ctx moment l) = Task.cutAt ctx moment l := by
    intro moment
    rw [cutAt_eq, cutAt_eq]
    exact hf _ _
  unfold await
  cases wake with
  | none =>
    cases ctx.signalAt l with
    | none => exact hf none l
    | some moment => exact hcut moment
  | some wake =>
    cases ctx.signalAt l with
    | none => rfl
    | some moment =>
      by_cases hlt : moment < wake
      · simp only [hlt, if_true]
        exact hcut moment
      · simp only [hlt, if_false]

/-- After a wait either the work is broken off, or it goes on. -/
theorem await_cases (ctx : Context) (wake : Option Nat) (l : Timeline)
    (k : Timeline → Played η ε α) :
    (∃ cut line, await ctx wake l k = ⟨.without cut, [], line⟩) ∨
      ∃ line, await ctx wake l k = k line := by
  have hcut : ∀ moment, ∃ cut line,
      (Task.cutAt ctx moment l : Played η ε α) = ⟨.without cut, [], line⟩ :=
    fun moment => ⟨_, _, cutAt_eq ctx moment l⟩
  unfold await
  cases wake with
  | none =>
    cases ctx.signalAt l with
    | none => exact Or.inl ⟨none, l, rfl⟩
    | some moment => exact Or.inl (hcut moment)
  | some wake =>
    cases ctx.signalAt l with
    | none => exact Or.inr ⟨_, rfl⟩
    | some moment =>
      by_cases hlt : moment < wake
      · simp only [hlt, if_true]
        exact Or.inl (hcut moment)
      · simp only [hlt, if_false]
        exact Or.inr ⟨_, rfl⟩

end Played

namespace Task

variable {η ε ε' ε'' α β γ : Type} {ctx : Context}

theorem play_sleep (ctx : Context) (length : Nat) (next : Task η ε α) (l : Timeline) :
    (sleep length next).play ctx l =
      .await ctx (some (Duration.tick (l.now + length))) l fun line => next.play ctx line := by
  unfold Played.await
  simp only [play]
  cases ctx.signalAt l <;> rfl

theorem play_untilDone (ctx other : Context) (next : Reason → Task η ε α) (l : Timeline) :
    (untilDone other next).play ctx l = .await ctx (other.signalAt l) l fun line =>
      match other.signal line with
      | some reason => (next reason).play ctx line
      | none => ⟨.stuck, [], line⟩ := by
  rw [play]
  unfold Played.await
  cases other.signalAt l <;> cases ctx.signalAt l <;> rfl

theorem play_hang (ctx : Context) (l : Timeline) (k : Timeline → Played η ε α) :
    hang.play ctx l = .await ctx none l k := by
  unfold Played.await
  simp only [play]
  cases ctx.signalAt l <;> rfl

theorem andThen_assoc (t : Task η ε α) (f : Except ε α → Task η ε' β)
    (g : Except ε' β → Task η ε'' γ) :
    (t.andThen f).andThen g = t.andThen fun r => (f r).andThen g := by
  induction t with
  | finish r => rfl
  | hang => rfl
  | note what next ih => exact congrArg (note what) ih
  | sleep length next ih => exact congrArg (sleep length) ih
  | cancel token next ih => exact congrArg (cancel token) ih
  | untilDone ctx next ih => exact congrArg (untilDone ctx) (funext ih)

/-- Work that goes on with the result of other work ends after it. -/
theorem alone_andThen (t : Task η ε α) (k : Except ε α → Task η ε' β) (l : Timeline) :
    (t.andThen k).alone l = (t.alone l).bind fun (r, line) => (k r).alone line := by
  induction t generalizing l with
  | finish r => rfl
  | hang => rfl
  | note what next ih => exact ih l
  | sleep length next ih => exact ih _
  | cancel token next ih => exact ih _
  | untilDone other next ih =>
    simp only [andThen, alone]
    cases other.signalAt l with
    | none => rfl
    | some wake =>
      cases hreason : other.signal (l.advanceTo wake) with
      | none => simp only [hreason, Option.bind_none]
      | some reason => simpa only [hreason] using ih reason _

theorem alone_mapError (f : ε → ε') (t : Task η ε α) (l : Timeline) :
    (t.mapError f).alone l = (t.alone l).map fun (r, line) => (r.mapError f, line) := by
  rw [mapError, alone_andThen, Option.map_eq_bind]
  rfl

theorem alone_noteAll (notes : List η) (next : Task η ε α) (l : Timeline) :
    (noteAll notes next).alone l = next.alone l := by
  induction notes with
  | nil => rfl
  | cons what notes ih => exact ih

theorem alone_quiet (t : Task Empty ε α) (l : Timeline) :
    (t.quiet : Task η ε α).alone l = t.alone l := by
  induction t generalizing l with
  | finish r => rfl
  | hang => rfl
  | note what next ih => exact what.elim
  | sleep length next ih => exact ih _
  | cancel token next ih => exact ih _
  | untilDone other next ih =>
    simp only [quiet, alone]
    cases other.signalAt l with
    | none => rfl
    | some wake =>
      cases hreason : other.signal (l.advanceTo wake) with
      | none => simp only [hreason]
      | some reason => simpa only [hreason] using ih reason _

/-- Work that goes on with the result of other work is played after it. -/
theorem play_andThen (ctx : Context) (t : Task η ε α) (k : Except ε α → Task η ε' β)
    (l : Timeline) :
    (t.andThen k).play ctx l = (t.play ctx l).andThen fun r line => (k r).play ctx line := by
  -- What follows is not begun after work that was broken off, so a wait is the same for both.
  have hwait := @Played.await_comm η ε ε' α β η
    (fun p => p.andThen fun r line => (k r).play ctx line)
    (fun cut line => Played.andThen_of_without rfl) ctx
  induction t generalizing l with
  | finish r => rfl
  | note what next ih =>
    simp only [Task.andThen, play, ih]
    exact (Played.andThen_note _ _ _).symm
  | cancel token next ih => exact ih (l.cancel token)
  | sleep length next ih =>
    rw [Task.andThen, play_sleep, play_sleep, hwait]
    simp only [ih]
  | untilDone other next ih =>
    rw [Task.andThen, play_untilDone, play_untilDone, hwait]
    congr 1
    funext line
    cases other.signal line with
    | none => rfl
    | some reason => exact ih reason line
  | hang =>
    have hboth := hwait none l fun line => ⟨.stuck, [], line⟩
    rw [← play_hang] at hboth
    rw [hboth]
    exact play_hang ctx l _

theorem play_mapError (ctx : Context) (f : ε → ε') (t : Task η ε α) (l : Timeline) :
    (t.mapError f).play ctx l =
      ⟨(t.play ctx l).ending.mapError f, (t.play ctx l).notes, (t.play ctx l).line⟩ := by
  rw [mapError, play_andThen]
  cases h : (t.play ctx l).ending <;> simp [Played.andThen, h, Ending.mapError, play]

theorem play_noteAll (ctx : Context) (notes : List η) (next : Task η ε α) (l : Timeline) :
    (noteAll notes next).play ctx l =
      { next.play ctx l with notes := notes.map (l, ·) ++ (next.play ctx l).notes } := by
  induction notes with
  | nil => rfl
  | cons what notes ih =>
    have hstep : (noteAll (what :: notes) next).play ctx l =
        { (noteAll notes next).play ctx l with
          notes := (l, what) :: ((noteAll notes next).play ctx l).notes } := rfl
    rw [hstep, ih]
    rfl

/-- Notes that end with a result take no time. -/
theorem play_noteAll_finish (ctx : Context) (notes : List η) (r : Except ε α) (l : Timeline) :
    (noteAll notes (finish r)).play ctx l = ⟨.finished r, notes.map (l, ·), l⟩ := by
  rw [play_noteAll]
  simp only [play, List.append_nil]

/-- Work that leaves no notes goes alike as part of work that does. -/
theorem play_quiet (ctx : Context) (t : Task Empty ε α) (l : Timeline) :
    (t.quiet.play ctx l : Played η ε α) = (t.play ctx l).quiet := by
  have hwait := @Played.await_comm Empty ε ε α α η Played.quiet (fun _ _ => rfl) ctx
  induction t generalizing l with
  | finish r => rfl
  | note what next ih => exact what.elim
  | cancel token next ih => exact ih (l.cancel token)
  | sleep length next ih =>
    rw [quiet, play_sleep, play_sleep, hwait]
    simp only [ih]
  | untilDone other next ih =>
    rw [quiet, play_untilDone, play_untilDone, hwait]
    congr 1
    funext line
    cases other.signal line with
    | none => rfl
    | some reason => exact ih reason line
  | hang =>
    have hboth := hwait none l fun line => ⟨.stuck, [], line⟩
    rw [← play_hang] at hboth
    rw [hboth]
    exact play_hang ctx l _

end Task

end Retry
