import Retry.Proofs.Stopping

namespace Retry

namespace Policy

variable {η ε α : Type}

/-- Attempt `number` of a run was made under the caller's context, and what its work would come to by
itself is `r`; that is `none` if it never ends. -/
def ComesTo (ctx : Context) (ops : List (Operation η ε α)) (journal : List (Entry η ε α))
    (number : Nat) (r : Option (Except ε α)) : Prop :=
  ∃ op start, Made ops journal number op ctx start ∧ ((op ctx).alone start).map (·.1) = r

variable [OfReason ε] {p : Policy ε} {rule : Rule ε} {ctx : Context} {op : Operation η ε α}
  {ops rest : List (Operation η ε α)} {l : Timeline} {ws : Words} {s : Loop}
  {journal : List (Entry η ε α)}

/-- An attempt that is not timed comes to what its work would, if the context is live after it. -/
theorem result_eq_alone (htimeout : p.attemptTimeout = none)
    (hafter : ctx.err (p.tried ctx op s).line = none) :
    (p.tried ctx op s).result = ((op ctx).alone s.line).map (·.1) := by
  have hwatched : p.watched ctx op s.line = (op ctx).play ctx s.line := by
    simp only [watched, attemptContext, htimeout]
  have hplay := (op ctx).watched_play ctx s.line
  rw [tried, err_attempt, hwatched] at hafter
  rw [tried, result_attempt, hwatched]
  cases hending : ((op ctx).play ctx s.line).ending with
  | finished r =>
    rw [hending] at hplay
    cases hplay with
    | finished halone =>
      rw [halone]
      rfl
  | cutOff reason =>
    have hdone := Context.err_of_signal (Task.signal_of_cutOff hending)
    rw [hafter] at hdone
    cases hdone
  | stuck =>
    rw [hending] at hplay
    cases hplay with
    | stuck halone =>
      rw [halone]
      rfl

theorem Reaches.comesTo_tried (htimeout : p.attemptTimeout = none)
    (h : p.Reaches ctx ops l ws (op :: rest) s journal) (hlive : ctx.err s.line = none)
    (hafter : ctx.err (p.tried ctx op s).line = none) :
    ComesTo ctx ops (p.run ctx ops l ws).journal (s.attempts + 1) (p.tried ctx op s).result := by
  refine ⟨op, s.line, made_iff.mpr ⟨rest, s, journal, h, hlive, rfl, ?_⟩, ?_⟩
  · simp only [attemptContext, htimeout]
  · exact (result_eq_alone htimeout hafter).symm

/-- Every result of a list is what the attempt of its number came to. -/
def AllCome (ctx : Context) (ops : List (Operation η ε α)) (journal : List (Entry η ε α))
    (made : List (Except ε α)) : Prop :=
  ∀ i r, made[i]? = some r → ComesTo ctx ops journal (i + 1) (some r)

omit [OfReason ε] in
theorem AllCome.concat {made : List (Except ε α)} {r : Except ε α}
    (h : AllCome ctx ops journal made)
    (hr : ComesTo ctx ops journal (made.length + 1) (some r)) :
    AllCome ctx ops journal (made ++ [r]) := by
  intro i x hi
  rw [List.getElem?_append] at hi
  split at hi
  · exact h i x hi
  · next hge =>
    rw [List.getElem?_singleton] at hi
    split at hi
    · next hzero =>
      obtain rfl := Option.some.inj hi
      obtain rfl : i = made.length := by omega
      exact hr
    · cases hi

/-- The results that a run has passed are what its attempts came to, in order. -/
theorem Reaches.passed (hp : p.Follows rule) (htimeout : p.attemptTimeout = none)
    (hlimit : rule.limit ≤ Budget.greatest) (h : p.Reaches ctx ops l ws rest s journal) :
    ∃ made, Passed rule s journal made ∧ AllCome ctx ops (p.run ctx ops l ws).journal made := by
  induction h with
  | start => exact ⟨[], passed_start rule l ws, nofun⟩
  | again h hlive hround ih =>
    obtain ⟨made, hpassed, hcome⟩ := ih
    obtain ⟨e, hr, hafter, hnext⟩ := hpassed.again hp hlimit hround
    have hlast := h.comesTo_tried htimeout hlive hafter
    rw [hr, ← hpassed.attempts] at hlast
    exact ⟨made ++ [.error e], hnext, hcome.concat hlast⟩

/-- How a run ends that makes these results: with the last of them, which is the first that ends it
by the rule; or without one that does, for want of another attempt, or in one that never ends. -/
inductive StopsBy (rule : Rule ε) (ctx : Context) (ops : List (Operation η ε α))
    (run : Report η ε α) : List (Except ε α) → Prop where
  | ends {made : List (Except ε α)} {r : Except ε α}
      (hfirst : ∀ before, before <+: made → ¬ rule.Ends before) (hends : rule.Ends (made ++ [r]))
      (hstatus : run.status = .returned (rule.outcome (made.length + 1) r)) :
      StopsBy rule ctx ops run (made ++ [r])
  | starves {made : List (Except ε α)} (hnone : ∀ before, before <+: made → ¬ rule.Ends before)
      (hall : made.length = ops.length) (hstatus : run.status = .starved) :
      StopsBy rule ctx ops run made
  | sticks {made : List (Except ε α)} (hnone : ∀ before, before <+: made → ¬ rule.Ends before)
      (hnext : ComesTo ctx ops run.journal (made.length + 1) none) (hstatus : run.status = .stuck) :
      StopsBy rule ctx ops run made

theorem stopsBy_run (hp : p.Follows rule) (htimeout : p.attemptTimeout = none)
    (hlimit : rule.limit ≤ Budget.greatest) (hline : ctx.err (p.run ctx ops l ws).line = none) :
    AllCome ctx ops (p.run ctx ops l ws).journal
        (Entry.pick Event.result? (p.run ctx ops l ws).journal) ∧
      StopsBy rule ctx ops (p.run ctx ops l ws)
        (Entry.pick Event.result? (p.run ctx ops l ws).journal) := by
  obtain ⟨rest, s, journal, report, hreach, hlast, hrun⟩ := p.exists_last ctx ops l ws
  obtain ⟨made, hpassed, hcome⟩ := hreach.passed hp htimeout hlimit
  have hresults : Entry.pick Event.result? (p.run ctx ops l ws).journal =
      made ++ Entry.pick Event.result? report.journal := by
    rw [hrun, Report.after, Entry.pick_append, hpassed.results]
  have hstatus : (p.run ctx ops l ws).status = report.status := by rw [hrun, Report.after]
  rw [hresults]
  have hend : ctx.err report.line = none := by
    rw [hrun] at hline
    exact hline
  cases hlast with
  | abandoned hdone =>
    rw [show ctx.err s.line = none from hend] at hdone
    cases hdone
  | starved =>
    obtain ⟨before, hops, hlength⟩ := hreach.tried_eq
    rw [Entry.pick_nil, List.append_nil]
    refine ⟨hcome, .starves hpassed.onward ?_ hstatus⟩
    rw [hpassed.attempts, hops, List.append_nil, hlength]
  | stopped hlive hround =>
    obtain ⟨hafter, hmore, hstop⟩ := hpassed.stop hp hlimit hround hend
    have hlast := hreach.comesTo_tried htimeout hlive hafter
    rw [← hpassed.attempts] at hlast
    rw [hmore]
    rcases hstop with ⟨hr, rfl⟩ | ⟨r, hr, hends, rfl⟩
    · rw [hr] at hlast ⊢
      rw [Option.toList_none, List.append_nil]
      exact ⟨hcome, .sticks hpassed.onward hlast hstatus⟩
    · rw [hr] at hlast ⊢
      exact ⟨hcome.concat hlast, .ends hpassed.onward hends hstatus⟩

omit [OfReason ε] in
/-- A run that returns has made just as many results as end it by the rule. -/
theorem StopsBy.isLeast {run : Report η ε α} {made : List (Except ε α)} {o : Outcome ε α}
    (h : StopsBy rule ctx ops run made) (hstatus : run.status = .returned o) :
    IsLeast {k | rule.Ends (made.take k)} made.length ∧
      ∃ r, made.getLast? = some r ∧ o = rule.outcome made.length r := by
  cases h with
  | starves _ _ hstatus' | sticks _ _ hstatus' =>
    rw [hstatus] at hstatus'
    cases hstatus'
  | @ends made r hfirst hends hstatus' =>
    rw [hstatus] at hstatus'
    refine ⟨⟨?_, fun k hk => ?_⟩, r, List.getLast?_concat, ?_⟩
    · show rule.Ends ((made ++ [r]).take (made ++ [r]).length)
      rw [List.take_length]
      exact hends
    · by_contra hlt
      rw [List.length_append, List.length_singleton, Nat.not_le, Nat.lt_succ_iff] at hlt
      refine hfirst _ (List.take_prefix k made) ?_
      rw [← List.take_append_of_le_length hlt]
      exact hk
    · rw [List.length_append, List.length_singleton]
      exact Status.returned.inj hstatus'

omit [OfReason ε] in
/-- A run that does not return has come to nothing that ends it by the rule. -/
theorem StopsBy.none_ends {run : Report η ε α} {made : List (Except ε α)}
    (h : StopsBy rule ctx ops run made) (hstatus : ∀ o, run.status ≠ .returned o) :
    (∀ k, ¬ rule.Ends (made.take k)) ∧
      (run.status = .starved ∧ made.length = ops.length ∨
        run.status = .stuck ∧ ComesTo ctx ops run.journal (made.length + 1) none) := by
  cases h with
  | ends _ _ hreturned => exact absurd hreturned (hstatus _)
  | starves hnone hall hstarved =>
    exact ⟨fun k => hnone _ (List.take_prefix k made), Or.inl ⟨hstarved, hall⟩⟩
  | sticks hnone hnext hstuck =>
    exact ⟨fun k => hnone _ (List.take_prefix k made), Or.inr ⟨hstuck, hnext⟩⟩

end Policy

end Retry
