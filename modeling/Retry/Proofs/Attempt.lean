import Retry.Policy.Run
import Retry.Proofs.Journal
import Retry.Proofs.Time

namespace Retry

namespace Policy

variable {η ε α : Type} [OfReason ε]

def tried (p : Policy ε) (ctx : Context) (op : Operation η ε α) (s : Loop) : Attempt η ε α :=
  p.attempt ctx (s.attempts + 1) op s.line

def watched (p : Policy ε) (ctx : Context) (op : Operation η ε α) (l : Timeline) : Played η ε α :=
  (op (p.attemptContext ctx l).1).play (p.attemptContext ctx l).1 (p.attemptContext ctx l).2

theorem result_attempt (p : Policy ε) (ctx : Context) (number : Nat) (op : Operation η ε α)
    (l : Timeline) :
    (p.attempt ctx number op l).result = resultOf (p.watched ctx op l).ending := rfl

/-- A timed attempt has a child of the caller's context for its own. -/
theorem token_attemptContext {ε : Type} {p : Policy ε} {timeout : Nat}
    (ht : p.attemptTimeout = some timeout) (ctx : Context) (l : Timeline) :
    (p.attemptContext ctx l).1.token = ctx.token.child l.issued := by
  simp only [attemptContext, ht, Context.withTimeout]
  split <;> rfl

/-- Giving the context of an attempt back is not seen by the caller. -/
theorem err_attempt (p : Policy ε) (ctx : Context) (number : Nat) (op : Operation η ε α)
    (l : Timeline) :
    ctx.err (p.attempt ctx number op l).line = ctx.err (p.watched ctx op l).line := by
  have hline : (p.attempt ctx number op l).line =
      p.release (p.attemptContext ctx l).1 (p.watched ctx op l).line := rfl
  rw [hline]
  cases ht : p.attemptTimeout with
  | none => simp [release, ht]
  | some timeout =>
    simp only [release, ht, Option.isSome_some, if_true, Context.cancel,
      token_attemptContext ht]
    exact ctx.err_cancel_child _ _

/-- An attempt leaves the call, the notes of the work, and the end if it has one. -/
theorem journal_attempt (p : Policy ε) (ctx : Context) (number : Nat) (op : Operation η ε α)
    (l : Timeline) : (p.attempt ctx number op l).journal =
      ⟨(p.attemptContext ctx l).2, .invoked number (p.attemptContext ctx l).1
        ((p.attemptContext ctx l).1.err (p.attemptContext ctx l).2)⟩ ::
      ((p.watched ctx op l).notes.map (fun note => ⟨note.1, .noted note.2⟩) ++
        (p.attempt ctx number op l).result.toList.map
          (fun result => ⟨(p.watched ctx op l).line, .ended result⟩)) := by
  rw [result_attempt]
  simp only [attempt, watched]
  cases resultOf ((op (p.attemptContext ctx l).1).play (p.attemptContext ctx l).1
    (p.attemptContext ctx l).2).ending <;> rfl

theorem journal_attempt_ended {p : Policy ε} {ctx : Context} {number : Nat} {op : Operation η ε α}
    {l : Timeline} {r : Except ε α} (h : (p.attempt ctx number op l).result = some r) :
    ∃ before, (p.attempt ctx number op l).journal =
      before ++ [⟨(p.watched ctx op l).line, .ended r⟩] := by
  have hjournal := p.journal_attempt ctx number op l
  rw [h] at hjournal
  exact ⟨_ :: _, hjournal⟩

theorem pick_attempt {β : Type} (f : Event η ε α → Option β)
    (hnote : ∀ what, f (.noted what) = none) (p : Policy ε) (ctx : Context) (number : Nat)
    (op : Operation η ε α) (l : Timeline) :
    Entry.pick f (p.attempt ctx number op l).journal =
      (f (.invoked number (p.attemptContext ctx l).1
        ((p.attemptContext ctx l).1.err (p.attemptContext ctx l).2))).toList ++
      (p.attempt ctx number op l).result.toList.filterMap fun result => f (.ended result) := by
  have hnotes : Entry.pick f
      ((p.watched ctx op l).notes.map fun note => (⟨note.1, .noted note.2⟩ : Entry η ε α)) = [] := by
    refine Entry.pick_eq_nil fun e he => ?_
    obtain ⟨note, -, rfl⟩ := List.mem_map.mp he
    exact hnote note.2
  rw [journal_attempt, ← List.singleton_append, Entry.pick_append, Entry.pick_append, hnotes,
    List.nil_append, Entry.pick_singleton, Entry.pick, List.filterMap_map]
  rfl

@[simp] theorem pick_invocation_tried (p : Policy ε) (ctx : Context) (op : Operation η ε α)
    (s : Loop) :
    Entry.pick Event.invocation? (p.tried ctx op s).journal = [s.attempts + 1] := by
  simp [tried, pick_attempt Event.invocation? (fun _ => rfl), Event.invocation?]

@[simp] theorem pick_result_tried (p : Policy ε) (ctx : Context) (op : Operation η ε α) (s : Loop) :
    Entry.pick Event.result? (p.tried ctx op s).journal = (p.tried ctx op s).result.toList := by
  simp [tried, pick_attempt Event.result? (fun _ => rfl), Event.result?]

@[simp] theorem pick_verdict_tried (p : Policy ε) (ctx : Context) (op : Operation η ε α)
    (s : Loop) :
    Entry.pick Event.verdict? (p.tried ctx op s).journal = [] := by
  simp [tried, pick_attempt Event.verdict? (fun _ => rfl), Event.verdict?]

end Policy

end Retry
