import Retry.Proofs.Reached
import Retry.Proofs.Tally

namespace Retry

namespace Policy

variable {η ε α : Type} {p : Policy ε} {ctx : Context} {ops rest : List (Operation η ε α)}
  {l line : Timeline} {ws : Words} {s : Loop} {b : Budget} {journal more : List (Entry η ε α)}

/-- Each retryable failure in a journal is met with a wait: right after the verdict the hint is
asked if there is one, the delay is logged, and it is slept. -/
def Waits (p : Policy ε) (journal : List (Entry η ε α)) : Prop :=
  ∀ line e err v tail, ⟨line, .judged e err v⟩ :: tail <:+ journal → v.retryable = true →
    ∃ number delay, Entry.allAt line
      (p.hintAsked number e ++ [.logged (.retrying number v delay), .slept delay]) <+: tail

theorem waits_append (hjournal : p.Waits journal) (hmore : p.Waits more) :
    p.Waits (journal ++ more) := by
  rintro line e err v tail ⟨before, hsplit⟩ hv
  rcases List.append_eq_append_iff.mp hsplit with ⟨middle, rfl, hmiddle⟩ | ⟨middle, -, hmiddle⟩
  · cases middle with
    | nil => exact hmore line e err v tail ⟨[], hmiddle⟩ hv
    | cons entry middle =>
      -- The first journal has the wait whole, and what comes after it only makes the rest longer.
      obtain ⟨rfl, rfl⟩ := List.cons.inj hmiddle
      obtain ⟨number, delay, hwait⟩ := hjournal line e err v middle ⟨before, rfl⟩ hv
      exact ⟨number, delay, hwait.trans (List.prefix_append _ _)⟩
  · exact hmore line e err v tail ⟨middle, hmiddle.symm⟩ hv

theorem waits_of_permanent (h : ∀ v ∈ Entry.pick Event.verdict? journal, v.retryable = false) :
    p.Waits journal := by
  intro line e err v tail hsuffix hv
  have hmem : v ∈ Entry.pick Event.verdict? journal :=
    List.mem_filterMap.mpr ⟨_, hsuffix.mem List.mem_cons_self, rfl⟩
  rw [h v hmem] at hv
  cases hv

theorem waits_judged (p : Policy ε) (line : Timeline) (number : Nat) (e : ε) (err : Option Reason)
    (v : Verdict) (delay : Nat) : p.Waits (Entry.allAt line (.judged e err v ::
      (p.hintAsked number e ++ [.logged (.retrying number v delay), .slept delay])) :
      List (Entry η ε α)) := by
  intro line' e' err' v' tail hsuffix hv
  rcases List.suffix_cons_iff.mp hsuffix with heq | hlater
  · cases heq
    exact ⟨number, delay, List.prefix_refl _⟩
  · have hsilent : p.Waits (Entry.allAt line
        (p.hintAsked number e ++ [.logged (.retrying number v delay), .slept delay]) :
        List (Entry η ε α)) := by
      refine waits_of_permanent ?_
      rw [hintAsked]
      cases p.delayHint <;> simp [Event.verdict?]
    exact hsilent line' e' err' v' tail hlater hv

theorem permanent_of_spent (hmode : p.mode ≠ .allErrors)
    (hb : p.maxAttempts ≠ 0 → b.counted < p.maxAttempts) {v : Verdict} {b' : Budget}
    (hrecord : b.record p.mode p.maxAttempts v.retryable = (b', .exhausted)) :
    v.retryable = false := by
  cases hv : v.retryable with
  | false => rfl
  | true =>
    have hgo := Budget.record_retryable hmode hb
    rw [hv] at hrecord
    rw [hrecord] at hgo
    cases hgo

theorem Decided.waits (hmode : p.mode ≠ .allErrors)
    (hb : p.maxAttempts ≠ 0 → b.counted < p.maxAttempts) {view : Context.View} {number : Nat}
    {e : ε} {events : List (Event η ε α)} {d : Decision}
    (h : p.Decided view number e b ws events d) (line : Timeline) :
    p.Waits (Entry.allAt line events) := by
  have hverdicts := h.verdicts
  cases h with
  | early hstop =>
    refine waits_of_permanent ?_
    rw [Entry.pick_allAt, hverdicts, if_pos hstop]
    simp
  | spent hgo hv hrecord =>
    refine waits_of_permanent ?_
    rw [Entry.pick_allAt, hverdicts, hgo, hv]
    simpa using permanent_of_spent hmode hb hrecord
  | retry hgo hv hrecord =>
    rw [Entry.allAt, List.map_append]
    refine waits_append (waits_of_permanent ?_) (p.waits_judged _ _ _ _ _ _)
    rw [passed]
    cases p.earlyReturn <;> simp [Entry.pick, Event.verdict?]

variable [OfReason ε]

theorem waits_tried (p : Policy ε) (ctx : Context) (op : Operation η ε α) (s : Loop) :
    p.Waits (p.tried ctx op s).journal := by
  refine waits_of_permanent ?_
  rw [pick_verdict_tried]
  exact List.forall_mem_nil _

theorem Turn.waits (hmode : p.mode ≠ .allErrors)
    (hb : p.maxAttempts ≠ 0 → s.budget.counted < p.maxAttempts) {op : Operation η ε α}
    {r : Round η ε α} (h : p.Turn ctx op s r) : p.Waits r.written := by
  have hlog : ∀ (line : Timeline) (log : Log),
      p.Waits (Entry.allAt line [.logged log] : List (Entry η ε α)) := fun line log =>
    waits_of_permanent (by simp [Event.verdict?])
  cases h with
  | stuck | value => exact p.waits_tried ctx op s
  | lost => exact waits_append (p.waits_tried ctx op s) (hlog _ _)
  | stopped hr hlive hd | again hr hlive hd =>
    exact waits_append (p.waits_tried ctx op s) ((decided_of_decision hd).waits hmode hb _)
  | interrupted hr hlive hd =>
    have hdecided := (decided_of_decision hd).waits hmode hb (p.tried ctx op s).line
    exact waits_append (p.waits_tried ctx op s) (waits_append hdecided (hlog _ _))

theorem Reaches.counted_lt (hzero : p.maxAttempts ≠ 0)
    (h : p.Reaches ctx ops l ws rest s journal) : s.budget.counted < p.maxAttempts := by
  induction h with
  | start => exact Nat.pos_of_ne_zero hzero
  | again h hlive hround ih =>
    cases turn_of_round hround with
    | again hr hafter hd hb =>
      cases decided_of_decision hd with
      | retry hgo hv hrecord => exact Budget.counted_lt_of_goOn hrecord hzero

theorem Reaches.waits (hmode : p.mode ≠ .allErrors) (h : p.Reaches ctx ops l ws rest s journal) :
    p.Waits journal := by
  induction h with
  | start => exact waits_of_permanent (List.forall_mem_nil _)
  | again h hlive hround ih =>
    exact waits_append ih ((turn_of_round hround).waits hmode fun hzero => h.counted_lt hzero)

theorem waits_run (hmode : p.mode ≠ .allErrors) (ctx : Context) (ops : List (Operation η ε α))
    (l : Timeline) (ws : Words) : p.Waits (p.run ctx ops l ws).journal := by
  obtain ⟨rest, s, journal, r, hreach, hlast, hrun⟩ := p.exists_last ctx ops l ws
  rw [hrun]
  refine waits_append (hreach.waits hmode) ?_
  cases hlast with
  | abandoned => exact waits_of_permanent (by simp [abandonBefore, Event.verdict?])
  | starved => exact waits_of_permanent (List.forall_mem_nil _)
  | stopped hlive hround =>
    exact (turn_of_round hround).waits hmode fun hzero => hreach.counted_lt hzero

/-- A run that neither returns early nor is abandoned ends because of its last failure, and where
retryable failures are free that one is permanent. -/
theorem last_verdict_of_failure (hmode : p.mode ≠ .allErrors) {e : ε} {number : Nat}
    {t : Termination} (h : (p.run ctx ops l ws).status = .returned (.failure e number t))
    (hearly : t ≠ .earlyReturn) (hcancelled : t ≠ .cancelled) :
    t = .nonRetryable ∧
      ∃ v, (Entry.pick Event.verdict? (p.run ctx ops l ws).journal).getLast? = some v ∧
        v.retryable = false := by
  obtain ⟨rest, s, journal, r, hreach, hlast, hrun⟩ := p.exists_last ctx ops l ws
  rw [hrun] at h ⊢
  obtain ⟨op, rest', events, -, -, hhalts, hjournal⟩ := hlast.halts h hcancelled
  have hverdicts := hhalts.decided.verdicts
  cases hhalts.decided with
  | early => exact absurd rfl hearly
  | spent hgo hv hrecord =>
    have hpermanent := permanent_of_spent hmode (fun hzero => hreach.counted_lt hzero) hrecord
    rw [hpermanent, Report.after, hjournal, Entry.pick_append, Entry.pick_append,
      pick_verdict_tried, Entry.pick_allAt, hverdicts, hgo, hv]
    exact ⟨rfl, _, List.getLast?_concat, hpermanent⟩

/-- Retryable failures use up the budget only where every failure counts. Elsewhere no run ends as
exhausted, one that the budget stops has a permanent failure recorded last, and every retryable one
is met with a wait; for before each attempt, in any mode, the counter stands below the limit. -/
theorem exhausted_only_of_allErrors (p : Policy ε) (ctx : Context) (ops : List (Operation η ε α))
    (l : Timeline) (ws : Words) :
    let run := p.run ctx ops l ws
    (p.mode ≠ .allErrors →
      (∀ e number, run.status ≠ .returned (.failure e number .exhausted)) ∧
      (∀ e number t, run.status = .returned (.failure e number t) → t ≠ .earlyReturn →
        t ≠ .cancelled → t = .nonRetryable ∧
          ∃ v, (Entry.pick Event.verdict? run.journal).getLast? = some v ∧ v.retryable = false) ∧
      p.Waits run.journal) ∧
    (p.maxAttempts ≠ 0 → ∀ rest s journal, p.Reaches ctx ops l ws rest s journal →
      s.budget.counted < p.maxAttempts) := by
  intro run
  refine ⟨fun hmode => ⟨?_, ?_, ?_⟩, fun hzero rest s journal h => h.counted_lt hzero⟩
  · intro e number hstatus
    cases (last_verdict_of_failure hmode hstatus (by decide) (by decide)).1
  · intro e number t hstatus hearly hcancelled
    exact last_verdict_of_failure hmode hstatus hearly hcancelled
  · exact waits_run hmode ctx ops l ws

/-- With one permanent failure counted and room for one more, an attempt is cut off: the run waits
and tries again, and only the next permanent failure ends it. Where every failure counts, the cut
off attempt ends the run. -/
theorem exhausted_only_of_allErrors_at_two :
    let fails : Operation Empty Reason Nat := fun _ => .finish (.error .cancelled)
    let sparing mode : Policy Reason :=
      { ofReasons 2 mode (some (Duration.ofMillis 5)) with
        delayHint := some fun attempts _ => some (Duration.ofSecs attempts) }
    let run mode := (sparing mode).run ⟨.root 0, none⟩ [fails, fun _ => .hang, fails] {} []
    ((run .permanentOnly).status = .returned (.failure .cancelled 3 .nonRetryable) ∧
        (∃ v, (Entry.pick Event.verdict? (run .permanentOnly).journal).getLast? = some v ∧
          v.retryable = false) ∧
        (sparing .permanentOnly).Waits (run .permanentOnly).journal) ∧
      (run .allErrors).status = .returned (.failure .deadlineExceeded 2 .exhausted) := by
  intro fails sparing run
  have hstatus : (run .permanentOnly).status =
      .returned (.failure .cancelled 3 .nonRetryable) := by decide +kernel
  obtain ⟨-, hlast, hwaits⟩ := (exhausted_only_of_allErrors (sparing .permanentOnly) ⟨.root 0, none⟩
    [fails, fun _ => .hang, fails] {} []).1 (by decide)
  refine ⟨⟨hstatus, ?_, hwaits⟩, by decide +kernel⟩
  exact (hlast _ _ _ hstatus (by decide) (by decide)).2

end Policy

end Retry
