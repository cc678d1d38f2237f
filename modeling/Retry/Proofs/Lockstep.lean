import Retry.Proofs.Reached

namespace Retry

namespace Policy

variable {η ε α β : Type}

/-- Two rounds that end a run alike, or go on in related states, with the same to tell. -/
inductive Round.Alike (tell : Entry η ε α → Option β) (Lines : Timeline → Timeline → Prop)
    (Loops : Loop → Loop → Prop) : Round η ε α → Round η ε α → Prop where
  | stop {status : Status ε α} {journal journal' : List (Entry η ε α)} {line line' : Timeline}
      {words words' : Words} (htold : journal'.filterMap tell = journal.filterMap tell)
      (hlines : Lines line line') :
      Alike tell Lines Loops (.stop status journal line words) (.stop status journal' line' words')
  | again {journal journal' : List (Entry η ε α)} {s s' : Loop}
      (htold : journal'.filterMap tell = journal.filterMap tell) (hloops : Loops s s') :
      Alike tell Lines Loops (.again journal s) (.again journal' s')

/-- Two runs that end alike. -/
structure Report.Alike (tell : Entry η ε α → Option β) (Lines : Timeline → Timeline → Prop)
    (run run' : Report η ε α) : Prop where
  status : run'.status = run.status
  told : run'.journal.filterMap tell = run.journal.filterMap tell
  lines : Lines run.line run'.line

theorem Report.Alike.after {tell : Entry η ε α → Option β} {Lines : Timeline → Timeline → Prop}
    {run run' : Report η ε α} {journal journal' : List (Entry η ε α)}
    (h : run.Alike tell Lines run') (htold : journal'.filterMap tell = journal.filterMap tell) :
    (run.after journal).Alike tell Lines (run'.after journal') where
  status := h.status
  told := by simp only [Report.after, List.filterMap_append, htold, h.told]
  lines := h.lines

variable [OfReason ε]

/-- Runs of `ops` under `p` and `p'` that go in step: what relates the states that they reach. -/
structure InStep (tell : Entry η ε α → Option β) (Lines : Timeline → Timeline → Prop)
    (Loops : Loop → Loop → Prop) (p p' : Policy ε) (ctx : Context) (ops : List (Operation η ε α))
    (l l' : Timeline) (ws ws' : Words) : Prop where
  start : Loops { line := l, words := ws } { line := l', words := ws' }
  attempts : ∀ s s', Loops s s' → s'.attempts = s.attempts
  lines : ∀ s s', Loops s s' → Lines s.line s'.line
  log : ∀ s s', Loops s s' → ∀ log, tell ⟨s'.line, .logged log⟩ = tell ⟨s.line, .logged log⟩
  err : ∀ rest s s' journal journal', p.Reaches ctx ops l ws rest s journal →
    p'.Reaches ctx ops l' ws' rest s' journal' → Loops s s' → ctx.err s'.line = ctx.err s.line
  round : ∀ op rest s s' journal journal', p.Reaches ctx ops l ws (op :: rest) s journal →
    p'.Reaches ctx ops l' ws' (op :: rest) s' journal' → Loops s s' → ctx.err s.line = none →
    (p.round ctx op s).Alike tell Lines Loops (p'.round ctx op s')

namespace InStep

variable {tell : Entry η ε α → Option β} {Lines : Timeline → Timeline → Prop}
  {Loops : Loop → Loop → Prop} {p p' : Policy ε} {ctx : Context} {ops rest : List (Operation η ε α)}
  {l l' : Timeline} {ws ws' : Words} {s s' : Loop} {journal journal' : List (Entry η ε α)}

theorem abandonBefore (h : InStep tell Lines Loops p p' ctx ops l l' ws ws') (hloops : Loops s s')
    (reason : Reason) (untried : List (Operation η ε α)) :
    (Policy.abandonBefore reason s untried).Alike tell Lines
      (Policy.abandonBefore reason s' untried) where
  status := congrArg (abandon reason) (h.attempts s s' hloops)
  told := by
    simp only [Policy.abandonBefore, Entry.allAt, List.map_cons, List.map_nil,
      h.attempts s s' hloops, List.filterMap_cons, h.log s s' hloops]
  lines := h.lines s s' hloops

theorem runFrom (h : InStep tell Lines Loops p p' ctx ops l l' ws ws')
    (hreach : p.Reaches ctx ops l ws rest s journal)
    (hreach' : p'.Reaches ctx ops l' ws' rest s' journal') (hloops : Loops s s') :
    (p.runFrom ctx rest s).Alike tell Lines (p'.runFrom ctx rest s') := by
  induction rest generalizing s s' journal journal' with
  | nil =>
    have herr := h.err _ s s' _ _ hreach hreach' hloops
    simp only [Policy.runFrom, herr]
    cases ctx.err s.line with
    | some reason => exact h.abandonBefore hloops reason []
    | none => exact ⟨rfl, rfl, h.lines s s' hloops⟩
  | cons op rest ih =>
    have herr := h.err _ s s' _ _ hreach hreach' hloops
    simp only [Policy.runFrom, herr]
    cases hlive : ctx.err s.line with
    | some reason => exact h.abandonBefore hloops reason (op :: rest)
    | none =>
      rw [hlive] at herr
      have hround := h.round op rest s s' _ _ hreach hreach' hloops hlive
      generalize hr : p.round ctx op s = r at hround
      generalize hr' : p'.round ctx op s' = r' at hround
      cases hround with
      | stop htold hlines => exact ⟨rfl, htold, hlines⟩
      | again htold hloops =>
        exact (ih (hreach.again hlive hr) (hreach'.again herr hr') hloops).after htold

/-- Runs that go in step end alike. -/
theorem run (h : InStep tell Lines Loops p p' ctx ops l l' ws ws') :
    (p.run ctx ops l ws).Alike tell Lines (p'.run ctx ops l' ws') :=
  h.runFrom .start .start h.start

end InStep

end Policy

end Retry
