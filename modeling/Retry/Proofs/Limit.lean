import Retry.Proofs.Reached
import Retry.Proofs.Tally

namespace Retry

namespace Policy

variable {η ε α : Type} [OfReason ε] {p : Policy ε} {ctx : Context}
  {ops rest : List (Operation η ε α)} {l : Timeline} {ws : Words} {s : Loop}
  {journal : List (Entry η ε α)}

/-- What a run has recorded where it stands before an attempt: one failure for each attempt, all
counted in the budget, and never enough of them to use up the limit. -/
structure Recorded (p : Policy ε) (s : Loop) (history : List Bool) : Prop where
  attempts : history.length = s.attempts
  counts : s.budget.Counts p.mode history
  below : p.maxAttempts ≠ 0 → ∀ before, before <+: history → p.mode.tally before < p.maxAttempts

omit [OfReason ε] in
theorem recorded_start (p : Policy ε) (l : Timeline) (ws : Words) :
    p.Recorded { line := l, words := ws } [] where
  attempts := rfl
  counts := Budget.counts_fresh p.mode
  below := by
    intro hlimit before hbefore
    rw [List.prefix_nil.mp hbefore, Mode.tally_nil]
    exact Nat.pos_of_ne_zero hlimit

omit [OfReason ε] in
theorem Recorded.again {history : List Bool} (hlimit : p.maxAttempts ≤ Budget.greatest)
    (h : p.Recorded s history) {retryable : Bool} {b : Budget}
    (hrecord : s.budget.record p.mode p.maxAttempts retryable = (b, .goOn)) (line : Timeline)
    (ws : Words) :
    p.Recorded { line, words := ws, budget := b, attempts := s.attempts + 1 }
      (history ++ [retryable]) where
  attempts := by rw [List.length_append, List.length_singleton, h.attempts]
  counts := Budget.counts_record h.counts hrecord
  below := by
    intro hzero before hbefore
    rcases List.prefix_concat_iff.mp hbefore with rfl | hbefore
    · have hspent := Budget.exhausted_iff h.counts hlimit hrecord
      by_contra hle
      cases hspent.mpr ⟨hzero, Nat.le_of_not_lt hle⟩
    · exact h.below hzero before hbefore

theorem history_tried (op : Operation η ε α) (line : Timeline) (events : List (Event η ε α)) :
    Entry.history ((p.tried ctx op s).journal ++ Entry.allAt line events) =
      (events.filterMap Event.verdict?).map (·.retryable) := by
  rw [Entry.history, Entry.pick_append, pick_verdict_tried, Entry.pick_allAt, List.nil_append]

theorem history_decided {op : Operation η ε α} {view : Context.View} {number : Nat} {e : ε}
    {b : Budget} {v : Verdict} {events : List (Event η ε α)} {d : Decision}
    (h : p.Decided view number e b ws events d) (hgo : p.stopsEarly view e = false)
    (hv : p.classifier view e = v) (line : Timeline) :
    Entry.history ((p.tried ctx op s).journal ++ Entry.allAt line events) = [v.retryable] := by
  rw [history_tried, h.verdicts, hgo, hv]
  rfl

theorem Reaches.recorded (hlimit : p.maxAttempts ≤ Budget.greatest)
    (h : p.Reaches ctx ops l ws rest s journal) : p.Recorded s (Entry.history journal) := by
  induction h with
  | start => exact p.recorded_start l ws
  | again h hlive hround ih =>
    cases turn_of_round hround with
    | again hr hafter hd hb =>
      have hdecided := decided_of_decision hd
      cases decided_of_decision hd with
      | retry hgo hv hrecord =>
        rw [Entry.history_append, history_decided hdecided hgo hv]
        exact ih.again hlimit hrecord _ _

/-- In the end the failures recorded count for less than the limit, or the run has ended with the
one that made them count for as much. -/
theorem below_or_spent (ctx : Context) (ops : List (Operation η ε α)) (l : Timeline) (ws : Words)
    (hlimit : p.maxAttempts ≤ Budget.greatest) (hzero : p.maxAttempts ≠ 0) :
    (∀ before, before <+: Entry.history (p.run ctx ops l ws).journal →
      p.mode.tally before < p.maxAttempts) ∨
    ∃ made v e, Entry.history (p.run ctx ops l ws).journal = made ++ [v] ∧
      (∀ before, before <+: made → p.mode.tally before < p.maxAttempts) ∧
      p.maxAttempts ≤ p.mode.tally (made ++ [v]) ∧
      (p.run ctx ops l ws).status =
        .returned (.failure e (made.length + 1) (if v then .exhausted else .nonRetryable)) := by
  obtain ⟨rest, s, journal, r, hreach, hlast, hrun⟩ := p.exists_last ctx ops l ws
  have hrecorded := hreach.recorded hlimit
  -- Without a verdict in its last round a run has recorded no more than before it.
  have hsilent : Entry.history r.journal = [] →
      ∀ before, before <+: Entry.history journal ++ Entry.history r.journal →
        p.mode.tally before < p.maxAttempts := by
    intro hnil
    rw [hnil, List.append_nil]
    exact hrecorded.below hzero
  rw [hrun]
  simp only [Report.after, Entry.history_append]
  cases hlast with
  | abandoned | starved => exact Or.inl (hsilent rfl)
  | stopped hlive hround =>
    cases turn_of_round hround with
    | stuck | value =>
      refine Or.inl (hsilent ?_)
      rw [Entry.history, pick_verdict_tried]
      rfl
    | lost => exact Or.inl (hsilent (history_tried _ _ _))
    | @stopped e _ _ hr hafter hd =>
      have hdecided := decided_of_decision hd
      cases decided_of_decision hd with
      | early hstop => exact Or.inl (hsilent (history_tried _ _ _))
      | @spent v _ hgo hv hrecord =>
        have hspent := Budget.exhausted_iff hrecorded.counts hlimit hrecord
        rw [history_decided hdecided hgo hv]
        refine Or.inr ⟨_, v.retryable, e, rfl, hrecorded.below hzero, (hspent.mp rfl).2, ?_⟩
        rw [hrecorded.attempts]
    | interrupted hr hafter hd hb =>
      have hdecided := decided_of_decision hd
      cases decided_of_decision hd with
      | retry hgo hv hrecord =>
        have hnext := (hrecorded.again hlimit hrecord s.line s.words).below hzero
        rw [← List.append_assoc, Entry.history_append, history_decided hdecided hgo hv]
        exact Or.inl (List.append_nil [_] ▸ hnext)

theorem tally_le_limit (hlimit : p.maxAttempts ≤ Budget.greatest) (hzero : p.maxAttempts ≠ 0)
    {before : List Bool} (hbefore : before <+: Entry.history (p.run ctx ops l ws).journal) :
    p.mode.tally before ≤ p.maxAttempts := by
  rcases below_or_spent ctx ops l ws hlimit hzero with
    hbelow | ⟨made, v, e, hhistory, hbelow, -, -⟩
  · exact Nat.le_of_lt (hbelow before hbefore)
  · rw [hhistory] at hbefore
    rcases List.prefix_concat_iff.mp hbefore with rfl | hprefix
    · have hlast := hbelow made (List.prefix_refl made)
      have hle := p.mode.tally_concat_le made v
      omega
    · exact Nat.le_of_lt (hbelow before hprefix)

/-- When the failures recorded so far count for as much as the limit they are all, and the run has
ended with the last of them, which is permanent if retryable ones are free. -/
theorem ends_at_limit (hlimit : p.maxAttempts ≤ Budget.greatest) (hzero : p.maxAttempts ≠ 0)
    (hmode : p.mode ≠ .allErrors) {before after : List Bool}
    (hhistory : Entry.history (p.run ctx ops l ws).journal = before ++ after)
    (hfull : p.mode.tally before = p.maxAttempts) :
    after = [] ∧ ∃ e, (p.run ctx ops l ws).status =
      .returned (.failure e (Entry.history (p.run ctx ops l ws).journal).length .nonRetryable) := by
  have hbefore : before <+: Entry.history (p.run ctx ops l ws).journal := ⟨after, hhistory.symm⟩
  rcases below_or_spent ctx ops l ws hlimit hzero with
    hbelow | ⟨made, v, e, hmade, hbelow, -, hstatus⟩
  · exact absurd hfull (Nat.ne_of_lt (hbelow before hbefore))
  · rw [hmade] at hbefore
    rcases List.prefix_concat_iff.mp hbefore with rfl | hprefix
    · refine ⟨List.self_eq_append_right.mp (hmade.symm.trans hhistory), e, ?_⟩
      rw [hmade, hstatus, List.length_append, List.length_singleton]
      cases v with
      | false => rfl
      | true =>
        have hlast := hbelow made (List.prefix_refl made)
        have hfree := Mode.tally_concat_free hmode made
        omega
    · exact absurd hfull (Nat.ne_of_lt (hbelow before hprefix))

theorem Reaches.attempts_lt (hlimit : p.maxAttempts ≤ Budget.greatest) (hzero : p.maxAttempts ≠ 0)
    (hmode : p.mode = .allErrors) (h : p.Reaches ctx ops l ws rest s journal) :
    s.attempts < p.maxAttempts := by
  have hrecorded := h.recorded hlimit
  have hbelow := hrecorded.below hzero _ (List.prefix_refl _)
  rw [hmode] at hbelow
  rw [← hrecorded.attempts]
  exact hbelow

theorem Last.length_invocations_le {r : Report η ε α} (h : p.Last ctx rest s r) :
    (Entry.pick Event.invocation? r.journal).length ≤ 1 := by
  cases h with
  | abandoned | starved => exact Nat.zero_le 1
  | stopped hlive hround =>
    have hviews := (turn_of_round hround).views.1
    exact Nat.le_of_eq (congrArg List.length hviews)

/-- Where every failure counts, a run that has as many operations as it may try, and whose attempts
all end, does end. -/
theorem exists_outcome (hlimit : p.maxAttempts ≤ Budget.greatest) (hzero : p.maxAttempts ≠ 0)
    (hmode : p.mode = .allErrors) (hops : p.maxAttempts ≤ ops.length)
    (hended : (Entry.pick Event.result? (p.run ctx ops l ws).journal).length =
      (Entry.pick Event.invocation? (p.run ctx ops l ws).journal).length) :
    ∃ o, (p.run ctx ops l ws).status = .returned o := by
  obtain ⟨rest, s, journal, r, hreach, hlast, hrun⟩ := p.exists_last ctx ops l ws
  have hroom := hreach.attempts_lt hlimit hzero hmode
  rw [hrun] at hended ⊢
  cases hlast with
  | abandoned => exact ⟨_, rfl⟩
  | starved =>
    obtain ⟨before, hbefore, hlength⟩ := hreach.tried_eq
    rw [hbefore, List.append_nil, hlength] at hops
    exact absurd hroom (Nat.not_lt.mpr hops)
  | stopped hlive hround =>
    cases turn_of_round hround with
    | value | lost | stopped | interrupted => exact ⟨_, rfl⟩
    | stuck hr =>
      obtain ⟨errors, herrors, hlength⟩ := hreach.pick_result
      simp [Report.after, hr, herrors, hreach.pick_invocation, hlength] at hended

theorem unlimited (hzero : p.maxAttempts = 0) {e : ε} {number : Nat} {t : Termination}
    (h : (p.run ctx ops l ws).status = .returned (.failure e number t)) (ht : t ≠ .cancelled) :
    t = .earlyReturn := by
  obtain ⟨rest, s, journal, r, hreach, hlast, hrun⟩ := p.exists_last ctx ops l ws
  rw [hrun] at h
  obtain ⟨op, rest', events, -, -, hhalts, -⟩ := hlast.halts h ht
  cases hhalts.decided with
  | early => rfl
  | @spent v _ _ _ hrecord =>
    rw [Budget.record, hzero, Budget.rule_zero] at hrecord
    cases hrecord

theorem length_invocations_le (hlimit : p.maxAttempts ≤ Budget.greatest) (hzero : p.maxAttempts ≠ 0)
    (hmode : p.mode = .allErrors) :
    (Entry.pick Event.invocation? (p.run ctx ops l ws).journal).length ≤ p.maxAttempts := by
  obtain ⟨rest, s, journal, r, hreach, hlast, hrun⟩ := p.exists_last ctx ops l ws
  have hroom := hreach.attempts_lt hlimit hzero hmode
  have hone := hlast.length_invocations_le
  simp only [hrun, Report.after, Entry.pick_append, List.length_append, hreach.pick_invocation,
    List.length_range']
  omega

theorem ends_at_permanent (hlimit : p.maxAttempts ≤ Budget.greatest) (hzero : p.maxAttempts ≠ 0)
    (hmode : p.mode = .permanentOnly) {before after : List Bool}
    (hhistory : Entry.history (p.run ctx ops l ws).journal = before ++ false :: after)
    (hcount : before.count false + 1 = p.maxAttempts) :
    after = [] ∧ ∃ e, (p.run ctx ops l ws).status =
      .returned (.failure e (Entry.history (p.run ctx ops l ws).journal).length .nonRetryable) := by
  have hsplit : Entry.history (p.run ctx ops l ws).journal = (before ++ [false]) ++ after := by
    rw [hhistory, List.append_assoc, List.singleton_append]
  have hfull : p.mode.tally (before ++ [false]) = p.maxAttempts := by
    rw [Mode.tally_concat_permanent, hmode, Mode.tally, hcount]
  have hfree : p.mode ≠ .allErrors := by simp [hmode]
  exact ends_at_limit hlimit hzero hfree hsplit hfull

/-- Where a retryable failure ends a streak, no permanent streak is longer than the limit, and one
as long comes last. -/
theorem ends_at_streak (hlimit : p.maxAttempts ≤ Budget.greatest) (hzero : p.maxAttempts ≠ 0)
    (hmode : p.mode = .permanentStreak) {before streak after : List Bool}
    (hhistory : Entry.history (p.run ctx ops l ws).journal = before ++ streak ++ after)
    (hstreak : ∀ retryable ∈ streak, retryable = false) : streak.length ≤ p.maxAttempts ∧
      (streak.length = p.maxAttempts → after = [] ∧ ∃ e, (p.run ctx ops l ws).status = .returned
        (.failure e (Entry.history (p.run ctx ops l ws).journal).length .nonRetryable)) := by
  have hlength : streak.length ≤ p.mode.tally (before ++ streak) := by
    rw [hmode]
    exact Mode.length_le_tally_streak before streak hstreak
  have hle : p.mode.tally (before ++ streak) ≤ p.maxAttempts :=
    tally_le_limit hlimit hzero ⟨after, hhistory.symm⟩
  have hfree : p.mode ≠ .allErrors := by simp [hmode]
  refine ⟨Nat.le_trans hlength hle, fun hfull => ?_⟩
  exact ends_at_limit hlimit hzero hfree hhistory (by omega)

/-- The limit of a run is never passed. As many attempts are made as the outcome says; where every
failure counts, no more than the limit, so that the run ends once they all do; else no more
permanent failures are recorded, in all or in a row, and the run ends with the one that makes them
so many. Without a limit no run ends because of it. -/
theorem limit_never_passed (p : Policy ε) (hlimit : p.maxAttempts ≤ Budget.greatest) (ctx : Context)
    (ops : List (Operation η ε α)) (l : Timeline) (ws : Words) :
    let run := p.run ctx ops l ws
    let invocations := Entry.pick Event.invocation? run.journal
    let failures := Entry.history run.journal
    (∀ o, run.status = .returned o → o.attempts = invocations.length) ∧
    (p.maxAttempts ≠ 0 →
      (p.mode = .allErrors → invocations.length ≤ p.maxAttempts ∧
        (p.maxAttempts ≤ ops.length →
          (Entry.pick Event.result? run.journal).length = invocations.length →
          ∃ o, run.status = .returned o)) ∧
      (p.mode = .permanentOnly → failures.count false ≤ p.maxAttempts ∧
        ∀ before after, failures = before ++ false :: after →
          before.count false + 1 = p.maxAttempts →
          after = [] ∧ ∃ e, run.status = .returned (.failure e failures.length .nonRetryable)) ∧
      (p.mode = .permanentStreak → ∀ before streak after, failures = before ++ streak ++ after →
        (∀ retryable ∈ streak, retryable = false) → streak.length ≤ p.maxAttempts ∧
          (streak.length = p.maxAttempts →
            after = [] ∧
              ∃ e, run.status = .returned (.failure e failures.length .nonRetryable)))) ∧
    (p.maxAttempts = 0 → ∀ e number t, run.status = .returned (.failure e number t) →
      t ≠ .exhausted ∧ t ≠ .nonRetryable) := by
  intro run invocations failures
  refine ⟨?_, fun hzero => ⟨?_, ?_, ?_⟩, ?_⟩
  · intro o ho
    have hinvocations : invocations = List.range' 1 o.attempts := pick_invocation_run ho
    rw [hinvocations, List.length_range']
  · intro hmode
    exact ⟨length_invocations_le hlimit hzero hmode, exists_outcome hlimit hzero hmode⟩
  · intro hmode
    have htally : p.mode.tally failures = failures.count false := by rw [hmode, Mode.tally]
    refine ⟨?_, fun before after => ends_at_permanent hlimit hzero hmode⟩
    rw [← htally]
    exact tally_le_limit hlimit hzero (List.prefix_refl _)
  · intro hmode before streak after
    exact ends_at_streak hlimit hzero hmode
  · intro hzero e number t hstatus
    have hearly : t ≠ .cancelled → t = .earlyReturn := unlimited hzero hstatus
    constructor
    · rintro rfl
      cases hearly (by decide)
    · rintro rfl
      cases hearly (by decide)

/-- The second attempt is cut off, which is worth a retry; the others fail for good. -/
theorem limit_never_passed_by_two :
    let fails : Operation Empty Reason Nat := fun _ => .finish (.error .cancelled)
    let ops := [fails, fun _ => .hang, fails, fails, fun _ => .finish (.ok 7)]
    let capped mode := ofReasons 2 mode (some (Duration.ofMillis 5))
    let run mode := (capped mode).run ⟨.root 0, none⟩ ops {} []
    ((Entry.pick Event.invocation? (run .allErrors).journal).length ≤ 2 ∧
        ∃ o, (run .allErrors).status = .returned o) ∧
      (∃ e, (run .permanentOnly).status = .returned (.failure e 3 .nonRetryable)) ∧
      ∃ e, (run .permanentStreak).status = .returned (.failure e 4 .nonRetryable) := by
  intro fails ops capped run
  have htwo : 2 ≤ Budget.greatest := by decide
  have hcapped := fun mode => limit_never_passed (capped mode) htwo ⟨.root 0, none⟩ ops {} []
  refine ⟨?_, ?_, ?_⟩
  · obtain ⟨hle, hends⟩ := ((hcapped .allErrors).2.1 (by decide)).1 rfl
    exact ⟨hle, hends (by decide) (by decide +kernel)⟩
  · have hfailures : Entry.history (run .permanentOnly).journal = [false, true] ++ [false] := by
      decide +kernel
    have hstops := (((hcapped .permanentOnly).2.1 (by decide)).2.1 rfl).2 _ _ hfailures rfl
    simp only [run] at hfailures
    rw [hfailures] at hstops
    exact hstops.2
  · have hfailures : Entry.history (run .permanentStreak).journal =
        [false, true] ++ [false, false] ++ [] := by
      decide +kernel
    have hstreak := ((hcapped .permanentStreak).2.1 (by decide)).2.2 rfl _ _ _ hfailures (by decide)
    have hstops := hstreak.2 rfl
    simp only [run] at hfailures
    rw [hfailures] at hstops
    exact hstops.2

end Policy

end Retry
