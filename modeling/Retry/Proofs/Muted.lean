import Retry.Proofs.Attempt
import Retry.Proofs.Decision
import Retry.Proofs.Sequence

namespace Retry

namespace Task

variable {η ε ε' α β : Type}

/-- The same work, leaving no notes. -/
def muted : Task η ε α → Task Empty ε α
  | finish r => finish r
  | note _ next => next.muted
  | sleep length next => sleep length next.muted
  | cancel token next => cancel token next.muted
  | untilDone ctx next => untilDone ctx fun r => (next r).muted
  | hang => hang

theorem muted_andThen (t : Task η ε α) (k : Except ε α → Task η ε' β) :
    (t.andThen k).muted = t.muted.andThen fun r => (k r).muted := by
  induction t with
  | finish r => rfl
  | hang => rfl
  | note what next ih => exact ih
  | sleep length next ih => exact congrArg (sleep length) ih
  | cancel token next ih => exact congrArg (cancel token) ih
  | untilDone ctx next ih => exact congrArg (untilDone ctx) (funext ih)

theorem muted_mapError (f : ε → ε') (t : Task η ε α) :
    (t.mapError f).muted = t.muted.mapError f := muted_andThen t _

theorem muted_quiet (t : Task Empty ε α) : (t.quiet : Task η ε α).muted = t := by
  induction t with
  | finish r => rfl
  | hang => rfl
  | note what next ih => exact what.elim
  | sleep length next ih => exact congrArg (sleep length) ih
  | cancel token next ih => exact congrArg (cancel token) ih
  | untilDone ctx next ih => exact congrArg (untilDone ctx) (funext ih)

end Task

/-- What is left of work without its notes. -/
def Played.muted {η ε α : Type} (p : Played η ε α) : Played Empty ε α := ⟨p.ending, [], p.line⟩

theorem Task.play_muted {η ε α : Type} (ctx : Context) (t : Task η ε α) (l : Timeline) :
    t.muted.play ctx l = (t.play ctx l).muted := by
  -- A wait leaves no notes of its own, so they can be dropped after it as well as before.
  have hwait := @Played.await_comm η ε ε α α Empty Played.muted (fun _ _ => rfl) ctx
  induction t generalizing l with
  | finish r => rfl
  | note what next ih => exact ih l
  | cancel token next ih => exact ih (l.cancel token)
  | sleep length next ih =>
    rw [muted, play_sleep, play_sleep, hwait]
    simp only [ih]
  | untilDone other next ih =>
    rw [muted, play_untilDone, play_untilDone, hwait]
    congr 1
    funext line
    cases other.signal line with
    | none => rfl
    | some reason => exact ih reason line
  | hang =>
    have hboth := hwait none l fun line => ⟨.stuck, [], line⟩
    rw [← play_hang] at hboth
    rw [hboth]
    exact play_hang ctx l _

variable {η ε α : Type}

/-- An event that is no note, of a run in which there are none. -/
def Event.muted? : Event η ε α → Option (Event Empty ε α)
  | invoked attempt ctx err => some (invoked attempt ctx err)
  | noted _ => none
  | ended result => some (ended result)
  | asked error stops => some (asked error stops)
  | judged error err verdict => some (judged error err verdict)
  | hinted attempts error hint => some (hinted attempts error hint)
  | slept delay => some (slept delay)
  | logged log => some (logged log)

namespace Entry

/-- A journal without its notes. -/
def muted (journal : List (Entry η ε α)) : List (Entry Empty ε α) :=
  journal.filterMap fun e => e.event.muted?.map (⟨e.line, ·⟩)

@[simp] theorem muted_append (j k : List (Entry η ε α)) : muted (j ++ k) = muted j ++ muted k :=
  List.filterMap_append

@[simp] theorem muted_allAt (l : Timeline) (events : List (Event η ε α)) :
    muted (allAt l events) = allAt l (events.filterMap Event.muted?) := by
  simp only [muted, allAt, List.filterMap_map, List.map_filterMap]
  rfl

end Entry

namespace Policy

/-- The same operation, leaving no notes. -/
def mutedOp (op : Operation η ε α) : Operation Empty ε α := fun own => (op own).muted

def Attempt.muted (a : Attempt η ε α) : Attempt Empty ε α :=
  ⟨a.result, Entry.muted a.journal, a.line⟩

def Report.muted (r : Report η ε α) : Report Empty ε α where
  status := r.status
  journal := Entry.muted r.journal
  line := r.line
  words := r.words
  untried := r.untried.map mutedOp

def Round.muted : Round η ε α → Round Empty ε α
  | .stop status journal line words => .stop status (Entry.muted journal) line words
  | .again journal s => .again (Entry.muted journal) s

theorem Round.muted_after (journal : List (Entry η ε α)) (r : Round η ε α) :
    (r.after journal).muted = r.muted.after (Entry.muted journal) := by
  cases r <;> simp only [Round.after, Round.muted, Entry.muted_append]

theorem budgetDecision_muted (p : Policy ε) (view : Context.View) (number : Nat) (e : ε)
    (b : Budget) (ws : Words) :
    p.budgetDecision (α := α) view number e b ws =
      ((p.budgetDecision view number e b ws).1.filterMap (Event.muted? (η := η)),
        (p.budgetDecision (η := η) (α := α) view number e b ws).2) := by
  simp only [budgetDecision]
  cases hrecord : b.record p.mode p.maxAttempts (p.classifier view e).retryable with
  | mk b' ruling =>
    cases ruling with
    | exhausted => rfl
    | goOn => cases p.delayHint <;> rfl

theorem decision_muted (p : Policy ε) (view : Context.View) (number : Nat) (e : ε) (b : Budget)
    (ws : Words) :
    p.decision (α := α) view number e b ws =
      ((p.decision view number e b ws).1.filterMap (Event.muted? (η := η)),
        (p.decision (η := η) (α := α) view number e b ws).2) := by
  cases hstop : p.stopsEarly view e with
  | true =>
    rw [decision_early hstop, decision_early hstop]
    rfl
  | false =>
    have hpassed : (p.passed e).filterMap (Event.muted? (η := η) (α := α)) = p.passed e := by
      unfold passed
      cases p.earlyReturn <;> rfl
    rw [decision_passed hstop, decision_passed hstop, p.budgetDecision_muted (η := η),
      List.filterMap_append, hpassed]

variable [OfReason ε]

theorem afterFailure_muted (p : Policy ε) (ctx : Context) (number : Nat) (e : ε) (s : Loop)
    (l : Timeline) :
    p.afterFailure (α := α) ctx number e s l =
      (p.afterFailure (η := η) (α := α) ctx number e s l).muted := by
  unfold afterFailure
  cases ctx.err l with
  | some reason => rfl
  | none =>
    rw [p.decision_muted (η := η)]
    obtain ⟨events, d⟩ := p.decision (η := η) (α := α) (ctx.view l) number e s.budget s.words
    cases d with
    | stop t => simp only [Round.muted, Entry.muted_allAt]
    | retry b delay words =>
      cases hb : p.backOff ctx delay l with
      | mk line cut =>
        cases cut with
        | none => simp only [hb, Round.muted, Entry.muted_allAt]
        | some reason =>
          simp only [hb, Round.muted, Entry.muted_append, Entry.muted_allAt]
          rfl

theorem attempt_muted (p : Policy ε) (ctx : Context) (number : Nat) (op : Operation η ε α)
    (l : Timeline) :
    p.attempt ctx number (mutedOp op) l = (p.attempt ctx number op l).muted := by
  simp only [attempt, mutedOp, Task.play_muted, Attempt.muted, Played.muted, Entry.muted]
  cases resultOf ((op (p.attemptContext ctx l).1).play (p.attemptContext ctx l).1
    (p.attemptContext ctx l).2).ending <;> simp [Event.muted?, List.filterMap_map]

theorem round_muted (p : Policy ε) (ctx : Context) (op : Operation η ε α) (s : Loop) :
    p.round ctx (mutedOp op) s = (p.round ctx op s).muted := by
  simp only [round, attempt_muted]
  generalize p.attempt ctx (s.attempts + 1) op s.line = a
  obtain ⟨result, journal, line⟩ := a
  match result with
  | none => rfl
  | some (.ok value) => rfl
  | some (.error e) =>
    simp only [Attempt.muted, Round.muted_after, ← afterFailure_muted]

theorem runFrom_muted (p : Policy ε) (ctx : Context) (ops : List (Operation η ε α)) (s : Loop) :
    p.runFrom ctx (ops.map mutedOp) s = (p.runFrom ctx ops s).muted := by
  induction ops generalizing s with
  | nil =>
    simp only [List.map_nil, runFrom]
    cases ctx.err s.line <;> rfl
  | cons op ops ih =>
    simp only [List.map_cons, runFrom, round_muted]
    cases ctx.err s.line with
    | some reason => rfl
    | none =>
      cases p.round ctx op s with
      | stop status journal line words => rfl
      | again journal s' =>
        simp only [Round.muted, ih, Report.after, Report.muted, Entry.muted_append]

/-- A run goes the same way whatever its operations note. -/
theorem run_muted (p : Policy ε) (ctx : Context) (ops : List (Operation η ε α)) (l : Timeline)
    (ws : Words) : p.run ctx (ops.map mutedOp) l ws = (p.run ctx ops l ws).muted :=
  p.runFrom_muted ctx ops _

end Policy

end Retry
