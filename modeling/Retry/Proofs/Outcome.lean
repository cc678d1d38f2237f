import Retry.Proofs.Reached
import Retry.Proofs.Task

namespace Retry

namespace Policy

variable {η ε α : Type} [OfReason ε] {p : Policy ε} {ctx : Context}
  {ops rest : List (Operation η ε α)} {l : Timeline} {ws : Words} {s : Loop}
  {journal : List (Entry η ε α)}

/-- Where a run looks whether the caller's context is done, and finds it so: before an attempt,
right after a failed one, or by the end of the wait that follows. -/
inductive FoundDone (p : Policy ε) (ctx : Context) : List (Operation η ε α) → Loop → Prop where
  | beforeAttempt {rest : List (Operation η ε α)} {s : Loop}
      (hdone : ctx.isDone s.line = true) : FoundDone p ctx rest s
  | afterFailure {op : Operation η ε α} {rest : List (Operation η ε α)} {s : Loop} {e : ε}
      (hr : (p.tried ctx op s).result = some (.error e))
      (hdone : ctx.isDone (p.tried ctx op s).line = true) : FoundDone p ctx (op :: rest) s
  | duringBackoff {op : Operation η ε α} {rest : List (Operation η ε α)} {s : Loop} {e : ε}
      {events : List (Event η ε α)} {b : Budget} {delay moment : Nat} {ws : Words}
      (hr : (p.tried ctx op s).result = some (.error e))
      (hd : p.decision (ctx.view (p.tried ctx op s).line) (s.attempts + 1) e s.budget s.words =
        (events, .retry b delay ws))
      (hm : ctx.signalAt (p.tried ctx op s).line = some moment)
      (hle : moment ≤ p.sleeper.wake (p.tried ctx op s).line.now delay) :
      FoundDone p ctx (op :: rest) s

omit [OfReason ε] in
theorem Decided.ne_cancelled {view : Context.View} {number : Nat} {e : ε} {b : Budget}
    {events : List (Event η ε α)} {t : Termination}
    (h : p.Decided view number e b ws events (.stop t)) : t ≠ .cancelled := by
  cases h with
  | early => decide
  | spent => split <;> decide

/-- A run that is abandoned has found the caller's context done, and has the reason from it. -/
theorem Last.foundDone {r : Report η ε α} {e : ε} {number : Nat} (h : p.Last ctx rest s r)
    (hr : r.status = .returned (.failure e number .cancelled)) :
    p.FoundDone ctx rest s ∧
      ∃ reason, e = OfReason.ofReason reason ∧ ctx.err r.line = some reason := by
  cases h with
  | @abandoned _ _ reason hdone =>
    cases hr
    exact ⟨.beforeAttempt (Option.isSome_iff_exists.mpr ⟨_, hdone⟩), reason, rfl, hdone⟩
  | starved hlive => cases hr
  | stopped hlive hround =>
    cases turn_of_round hround with
    | stuck | value => cases hr
    | @lost _ reason hresult hdone =>
      cases hr
      have hfound := Option.isSome_iff_exists.mpr ⟨_, hdone⟩
      exact ⟨.afterFailure hresult hfound, reason, rfl, hdone⟩
    | stopped hresult hafter hd =>
      cases hr
      exact absurd rfl (decided_of_decision hd).ne_cancelled
    | @interrupted _ _ _ _ _ _ reason hresult hafter hd hb =>
      cases hr
      obtain ⟨hreason, moment, hm, hle, -⟩ := backOff_eq_some hb
      exact ⟨.duringBackoff hresult hd hm hle, reason, rfl, Context.err_of_signal hreason⟩

theorem FoundDone.abandons (h : p.FoundDone ctx rest s) :
    ∃ reason number, (p.runFrom ctx rest s).status = abandon reason number := by
  cases hlive : ctx.err s.line with
  | some reason =>
    refine ⟨reason, s.attempts, ?_⟩
    cases rest <;> simp only [runFrom, hlive, abandonBefore]
  | none =>
    cases h with
    | beforeAttempt hdone => simp [Context.isDone, hlive] at hdone
    | @afterFailure op _ _ e hr hdone =>
      have hturn := p.turn_round ctx op s
      simp only [runFrom, hlive]
      generalize p.round ctx op s = r at hturn
      cases hturn with
      | lost => exact ⟨_, _, rfl⟩
      | stuck hr' | value hr' => simp [hr] at hr'
      | stopped _ hafter | interrupted _ hafter | again _ hafter =>
        simp [Context.isDone, hafter] at hdone
    | @duringBackoff op _ _ e events b delay moment ws hr hd hm hle =>
      have hturn := p.turn_round ctx op s
      simp only [runFrom, hlive]
      generalize p.round ctx op s = r at hturn
      cases hturn with
      | lost | interrupted => exact ⟨_, _, rfl⟩
      | stuck hr' | value hr' => simp [hr] at hr'
      | stopped hr' _ hd' =>
        rw [hr] at hr'
        cases hr'
        rw [hd] at hd'
        cases hd'
      | again hr' _ hd' hb =>
        rw [hr] at hr'
        cases hr'
        rw [hd] at hd'
        cases hd'
        exact absurd ((backOff_eq_none hb).2 moment hm) (Nat.not_lt.mpr hle)

/-- What becomes of an attempt whose work would come to a value: it does, and the run ends with it,
or the signal of the attempt's context comes before. -/
theorem Reaches.value_of_alone {op : Operation η ε α} {own : Context} {start finish : Timeline}
    {v : α} (h : p.Reaches ctx ops l ws (op :: rest) s journal) (hlive : ctx.err s.line = none)
    (hown : p.attemptContext ctx s.line = (own, start))
    (halone : (op own).alone start = some (.ok v, finish)) :
    ((p.run ctx ops l ws).status = .returned (.success v (s.attempts + 1)) ∧
        (p.run ctx ops l ws).journal.getLast? = some ⟨finish, .ended (.ok v)⟩) ∨
      ∃ reason, ((op own).play own start).ending = .cutOff reason ∧
        own.signal ((op own).play own start).line = some reason ∧
        ((op own).play own start).line.now < finish.now := by
  have hplay : p.watched ctx op s.line = (op own).play own start := by
    simp only [watched, hown]
  have hresult := p.result_attempt ctx (s.attempts + 1) op s.line
  have hwatched := (op own).watched_play own start
  rw [hplay] at hresult
  rw [halone] at hwatched
  cases hend : ((op own).play own start).ending with
  | stuck =>
    rw [hend] at hwatched
    cases hwatched with
    | stuck hnone => cases hnone
  | cutOff reason =>
    rw [hend] at hwatched
    cases hwatched with
    | cutOff hsignal hlate => exact Or.inr ⟨reason, rfl, hsignal, hlate _ _ rfl⟩
  | finished r =>
    rw [hend] at hwatched hresult
    cases hwatched with
    | finished hr =>
      obtain ⟨rfl, hfinish⟩ := Prod.mk.inj (Option.some.inj hr)
      obtain ⟨before, hjournal⟩ := journal_attempt_ended hresult
      rw [hplay, ← hfinish] at hjournal
      rw [h.run_eq]
      simp only [runFrom, hlive, round, hresult, resultOf, Report.after, hjournal, true_and]
      rw [← List.append_assoc, List.getLast?_concat]
      exact Or.inl rfl

/-- No value and no error is lost. An attempt whose work comes to a value ends the run with it,
unless the signal of its context comes strictly before; an error that the policy stops at is that of
the last attempt, as it was, with the caller's context not done; and a run ends because that context
is done exactly when it is found so, with nothing but the reason. -/
theorem no_result_lost (p : Policy ε) (ctx : Context) (ops : List (Operation η ε α)) (l : Timeline)
    (ws : Words) :
    let run := p.run ctx ops l ws
    (∀ number op own start v finish, Made ops run.journal number op own start →
      (op own).alone start = some (.ok v, finish) →
        (run.status = .returned (.success v number) ∧
          run.journal.getLast? = some ⟨finish, .ended (.ok v)⟩) ∨
        ∃ reason, ((op own).play own start).ending = .cutOff reason ∧
          own.signal ((op own).play own start).line = some reason ∧
          ((op own).play own start).line.now < finish.now) ∧
    (∀ e number t, run.status = .returned (.failure e number t) → t ≠ .cancelled →
      Entry.pick Event.invocation? run.journal = List.range' 1 number ∧
      ∃ op own start, Made ops run.journal number op own start ∧
        resultOf ((op own).play own start).ending = some (.error e) ∧
        ctx.err ((op own).play own start).line = none) ∧
    (∀ e number, run.status = .returned (.failure e number .cancelled) →
      ∃ reason, e = OfReason.ofReason reason ∧ ctx.err run.line = some reason ∧
        (reason = .cancelled ↔ run.line.isCancelled ctx.token = true)) ∧
    ((∃ e number, run.status = .returned (.failure e number .cancelled)) ↔
      ∃ rest s journal, p.Reaches ctx ops l ws rest s journal ∧ p.FoundDone ctx rest s) := by
  intro run
  obtain ⟨rest, s, journal, r, hreach, hlast, hrun⟩ := p.exists_last ctx ops l ws
  have hstatus_eq : run.status = r.status := by simp only [run, hrun, Report.after]
  have hline_eq : run.line = r.line := by simp only [run, hrun, Report.after]
  refine ⟨?_, ?_, ?_, ?_⟩
  · intro number op own start v finish hmade halone
    obtain ⟨rest, s, journal, hreach, hlive, rfl, hown⟩ := made_iff.mp hmade
    exact hreach.value_of_alone hlive hown halone
  · intro e number t hstatus ht
    obtain ⟨op, rest', events, rfl, hnumber, hhalts, -⟩ := hlast.halts (hstatus_eq ▸ hstatus) ht
    refine ⟨pick_invocation_run hstatus, op, (p.attemptContext ctx s.line).1,
      (p.attemptContext ctx s.line).2, ?_, ?_, ?_⟩
    · exact made_iff.mpr ⟨rest', s, journal, hreach, hhalts.live, hnumber, rfl⟩
    · exact hhalts.result
    · exact (p.err_attempt ctx (s.attempts + 1) op s.line).symm.trans hhalts.after
  · intro e number hstatus
    obtain ⟨-, reason, he, hreason⟩ := hlast.foundDone (hstatus_eq ▸ hstatus)
    rw [← hline_eq] at hreason
    refine ⟨reason, he, hreason, ?_⟩
    rw [← Context.err_eq_cancelled_iff, hreason, Option.some_inj]
  · constructor
    · rintro ⟨e, number, hstatus⟩
      exact ⟨rest, s, journal, hreach, (hlast.foundDone (hstatus_eq ▸ hstatus)).1⟩
    · rintro ⟨rest, s, journal, hreach, hfound⟩
      obtain ⟨reason, number, hstatus⟩ := hfound.abandons
      refine ⟨OfReason.ofReason reason, number, ?_⟩
      simp only [run, hreach.run_eq]
      exact hstatus

/-- The second attempt comes to its value when its five milliseconds are just over, and the value
counts. So it does at the tick of a deadline that passed between two ticks, also when the work came
to itself after it; and where nothing is waited for between two attempts, no tick is either. The
wait of a run whose context is cancelled and misses its deadline in one moment ends with the
cancellation. -/
theorem no_result_lost_on_ties :
    let succeeds : Task Empty Reason Nat := .finish (.ok 7)
    let late : Operation Empty Reason Nat := fun _ => .sleep 5000000 succeeds
    let hears := fun (next : Task Empty Reason Nat) (_ : Context) =>
      Task.untilDone ⟨.root 1, none⟩ fun _ => next
    let woken := hears (.sleep 100000 succeeds)
    let fails := hears (.finish (.error .deadlineExceeded))
    let free : Context := ⟨.root 0, none⟩
    let half : Context := ⟨.root 0, some 500000⟩
    let soon : Context := ⟨.root 0, some 800000⟩
    let both : Context := ⟨.root 0, some 9000000⟩
    let odd : Timeline := ({} : Timeline).plan 700000 (.root 1)
    let timed := ofReasons 3 .allErrors (some (Duration.ofMillis 5))
    let plain := ofReasons 3 .allErrors none
    let restless := { plain with sleeper := .instant }
    let own : Context := ⟨⟨[1, 0]⟩, some 210000000⟩
    let start : Timeline := ⟨205000000, [⟨[0, 0]⟩], [], 2⟩
    let run := timed.run free [fun _ => .hang, late] {} []
    let tied := plain.run half [woken] odd []
    let rushed := restless.run soon [fails, fun _ => succeeds] odd []
    let cut := timed.run both [fun _ => .hang, late] (({} : Timeline).plan 9000000 (.root 0)) []
    (Made [fun _ => .hang, late] run.journal 2 late own start ∧
        own.signalAt start = some 210000000 ∧
        (late own).alone start = some (.ok 7, start.advanceTo 210000000) ∧
        run.status = .returned (.success 7 2)) ∧
      (Made [woken] tied.journal 1 woken half odd ∧
        (woken half).alone odd = some (.ok 7, ⟨1000000, [.root 1], [], 0⟩) ∧
        half.err tied.line = some .deadlineExceeded ∧ tied.status = .returned (.success 7 1)) ∧
      (Made [fails, fun _ => succeeds] rushed.journal 2 (fun _ => succeeds) soon
          ⟨700000, [.root 1], [], 0⟩ ∧
        rushed.status = .returned (.success 7 2)) ∧
      (cut.status = .returned (.failure .cancelled 1 .cancelled) ∧
        both.err cut.line = some .cancelled ∧ cut.line.now = 9000000) := by
  intro succeeds late hears woken fails free half soon both odd timed plain restless own start run
    tied rushed cut
  have hvalue : ∀ {p : Policy Reason} {ctx own : Context}
      {ops : List (Operation Empty Reason Nat)} {l start finish : Timeline} {number : Nat}
      {op : Operation Empty Reason Nat}, Made ops (p.run ctx ops l []).journal number op own start →
      (op own).alone start = some (.ok 7, finish) →
      finish.now ≤ ((op own).play own start).line.now →
      (p.run ctx ops l []).status = .returned (.success 7 number) := by
    intro p ctx own ops l start finish number op hmade halone htie
    rcases (no_result_lost p ctx ops l []).1 number op own start 7 finish hmade halone with
      ⟨hstatus, -⟩ | ⟨reason, -, -, hbefore⟩
    · exact hstatus
    · exact absurd hbefore (Nat.not_lt.mpr htie)
  have hmade : Made [fun _ => .hang, late] run.journal 2 late own start :=
    ⟨⟨1, rfl, rfl⟩, none, by decide +kernel⟩
  have halone : (late own).alone start = some (.ok 7, start.advanceTo 210000000) := by
    decide +kernel
  have hwoken : Made [woken] tied.journal 1 woken half odd :=
    ⟨⟨0, rfl, rfl⟩, none, by decide +kernel⟩
  have hodd : (woken half).alone odd = some (.ok 7, ⟨1000000, [.root 1], [], 0⟩) := by
    decide +kernel
  have hagain : Made [fails, fun _ => succeeds] rushed.journal 2 (fun _ => succeeds) soon
      ⟨700000, [.root 1], [], 0⟩ := ⟨⟨1, rfl, rfl⟩, none, by decide +kernel⟩
  have hcut : cut.status = .returned (.failure .cancelled 1 .cancelled) := by decide +kernel
  refine ⟨⟨hmade, by decide +kernel, halone, hvalue hmade halone (by decide +kernel)⟩,
    ⟨hwoken, hodd, by decide +kernel, hvalue hwoken hodd (by decide +kernel)⟩,
    ⟨hagain, hvalue hagain rfl (by decide +kernel)⟩, hcut, ?_, by decide +kernel⟩
  obtain ⟨reason, hreason, herr, -⟩ := (no_result_lost timed both [fun _ => .hang, late]
    (({} : Timeline).plan 9000000 (.root 0)) []).2.2.1 _ _ hcut
  exact herr.trans (congrArg some hreason.symm)

end Policy

end Retry
