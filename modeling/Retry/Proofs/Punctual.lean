import Retry.Proofs.Course
import Retry.Proofs.Delay

namespace Retry

namespace Policy

variable {η ε α : Type} [OfReason ε] {p : Policy ε} {ctx : Context}
  {ops rest : List (Operation η ε α)} {l : Timeline} {ws : Words} {s : Loop}
  {journal : List (Entry η ε α)}

/-- The moments from which on a run's context is done: its deadline, those of the planned
cancellations of it, and those at which an operation of the run cancels it. -/
inductive BecomesDone (p : Policy ε) (ctx : Context) (ops : List (Operation η ε α)) (l : Timeline)
    (ws : Words) : Nat → Prop where
  | deadline {d : Nat} (hd : ctx.deadline = some d) : BecomesDone p ctx ops l ws d
  | planned {plan : Plan} (hplan : plan ∈ l.planned)
      (hc : plan.token.covers ctx.token = true) : BecomesDone p ctx ops l ws plan.moment
  | revoked {number : Nat} {op : Operation η ε α} {own : Context} {start line : Timeline}
      {token : Token} (hmade : Made ops (p.run ctx ops l ws).journal number op own start)
      (htoken : (line, token) ∈ (op own).revoked own start)
      (hc : token.covers ctx.token = true) : BecomesDone p ctx ops l ws line.now

/-- A run whose caller's context is cancelled by an operation returns in that moment. -/
theorem returns_of_revoked {number : Nat} {op : Operation η ε α} {own : Context}
    {start line : Timeline} {token : Token}
    (hmade : Made ops (p.run ctx ops l ws).journal number op own start)
    (htoken : (line, token) ∈ (op own).revoked own start)
    (hc : token.covers ctx.token = true) :
    (p.run ctx ops l ws).line.now ≤ line.now ∧
      (p.run ctx ops l ws).line.isCancelled ctx.token = true ∧
      ∃ o, (p.run ctx ops l ws).status = .returned o := by
  obtain ⟨rest, s, journal, hreach, hlive, -, hown⟩ := made_iff.mp hmade
  have habove := p.above_attemptContext ctx s.line
  have hplays := p.plays_watched ctx op s.line
  rw [hown] at habove hplays
  obtain ⟨hnow, hstuck⟩ := hplays.over_of_cancel htoken (Token.covers_trans hc habove.token)
  have hcancelled : (p.watched ctx op s.line).line.isCancelled ctx.token = true := by
    refine (hplays.onward.isCancelled_iff _).mpr (Or.inr (Or.inl ⟨token, ?_, hc⟩))
    exact List.mem_map_of_mem (f := (·.2)) htoken
  have hafter : (p.tried ctx op s).line.isCancelled ctx.token = true :=
    (p.before_release _ _).isCancelled hcancelled
  have hresult : (p.tried ctx op s).result ≠ none := resultOf_ne_none hstuck
  obtain ⟨o, more, words, hround⟩ :=
    (p.turn_round ctx op s).returns_of_tried_isDone (Context.isDone_of_isCancelled hafter) hresult
  rw [hreach.run_eq_of_last (.stopped hlive hround)]
  exact ⟨(p.now_tried ctx op s).symm ▸ hnow, hafter, o, rfl⟩

theorem over_by_of_becomesDone {d : Nat} (h : p.BecomesDone ctx ops l ws d) :
    (p.run ctx ops l ws).line.now ≤ max l.now (Duration.tick d) ∧
      ((∃ o, (p.run ctx ops l ws).status = .returned o) ∨
        (p.run ctx ops l ws).status = .starved ∧ ctx.err (p.run ctx ops l ws).line = none) := by
  have hstart : ∀ m, l.now ≤ max l.now m := fun m => Nat.le_max_left _ _
  have htick : d ≤ max l.now (Duration.tick d) :=
    Nat.le_trans (Duration.le_tick d) (Nat.le_max_right _ _)
  cases h with
  | deadline hd => exact over_by (Context.dueBy_of_deadline hd (hstart _) (Nat.le_max_right _ _))
  | planned hplan hc => exact over_by (Context.dueBy_of_planned hplan hc (hstart _) htick)
  | revoked hmade htoken hc =>
    obtain ⟨hnow, -, hreturned⟩ := returns_of_revoked hmade htoken hc
    exact ⟨Nat.le_trans hnow htick, Or.inl hreturned⟩

/-- Where every wait takes some time, attempts are at least as far apart. -/
theorem Reaches.attempts_apart {least : Nat}
    (hwait : ∀ now number e ws, now + least ≤ p.sleeper.wake now (p.delayFor (number + 1) e ws).1)
    (h : p.Reaches ctx ops l ws rest s journal) : l.now + least * s.attempts ≤ s.line.now := by
  induction h with
  | start => exact Nat.le_refl _
  | @again op rest s s' journal more h hlive hround ih =>
    have htried := (p.course_tried ctx op s).before.now_le
    cases turn_of_round hround with
    | @again e events b delay _ _ hr hafter hd hb =>
      obtain ⟨rfl, -⟩ := backOff_eq_none hb
      cases decided_of_decision hd with
      | retry hgo hv hrecord hdelay =>
        have hwake : (p.tried ctx op s).line.now + least ≤
            p.sleeper.wake (p.tried ctx op s).line.now delay := by
          simpa only [hdelay] using hwait (p.tried ctx op s).line.now s.attempts e s.words
        calc l.now + least * (s.attempts + 1) = l.now + least * s.attempts + least := by
              rw [Nat.mul_add, Nat.mul_one, Nat.add_assoc]
          _ ≤ (p.tried ctx op s).line.now + least :=
              Nat.add_le_add_right (Nat.le_trans ih htried) least
          _ ≤ p.sleeper.wake (p.tried ctx op s).line.now delay := hwake
          _ ≤ _ := (p.tried ctx op s).line.le_advanceTo_now _

/-- A run that starves has tried all its operations. -/
theorem starved_apart {least : Nat}
    (hwait : ∀ now number e ws, now + least ≤ p.sleeper.wake now (p.delayFor (number + 1) e ws).1)
    (h : (p.run ctx ops l ws).status = .starved) :
    l.now + least * ops.length ≤ (p.run ctx ops l ws).line.now := by
  obtain ⟨rest, s, journal, report, hreach, hlast, hrun⟩ := p.exists_last ctx ops l ws
  rw [hrun] at h ⊢
  cases hlast with
  | abandoned => cases h
  | starved hlive =>
    obtain ⟨before, hops, hlength⟩ := hreach.tried_eq
    rw [hops, List.append_nil, hlength]
    exact hreach.attempts_apart hwait
  | stopped hlive hround =>
    cases turn_of_round hround <;> cases h

/-- Every call of a run is made with the caller's context live. Where the context is found done, no
call is made after, and the run returns: by the next tick, and in that very moment but for an
attempt that is still going on and has until the signal. Whatever makes the context done, all is
over by the first tick from then on, or at the start if that is later: the run has returned, unless
it wants another attempt and there is none, which it cannot where waits take time and operations
abound. -/
theorem nothing_runs_when_done (p : Policy ε) (ctx : Context) (ops : List (Operation η ε α))
    (l : Timeline) (ws : Words) :
    let run := p.run ctx ops l ws
    (∀ e ∈ run.journal, e.event.isCall = true → ctx.err e.line = none) ∧
    (∀ before e after, run.journal = before ++ e :: after → ctx.isDone e.line = true →
      (∀ x ∈ after, x.event.isCall = false) ∧
        ∃ o, run.status = .returned o ∧ run.line.now ≤ Duration.tick e.moment ∧
          (run.line.now = e.moment ∨ Lingers ctx e)) ∧
    ∀ d, p.BecomesDone ctx ops l ws d →
      (∀ e ∈ run.journal, e.moment ≤ max l.now (Duration.tick d)) ∧
      run.line.now ≤ max l.now (Duration.tick d) ∧
      ((∃ o, run.status = .returned o) ∨ run.status = .starved ∧ ctx.err run.line = none) ∧
      ∀ least, (∀ now number e ws,
          now + least ≤ p.sleeper.wake now (p.delayFor (number + 1) e ws).1) →
        max l.now (Duration.tick d) < l.now + least * ops.length →
        ∃ o, run.status = .returned o := by
  intro run
  have hcourse := p.course_run ctx ops l ws
  refine ⟨fun e he hcall => call_live he hcall, ?_, ?_⟩
  · intro before e after hsplit hdone
    have he : e ∈ run.journal := by
      rw [hsplit]
      exact List.mem_append_right _ List.mem_cons_self
    obtain ⟨o, hstatus, hmoment, hover⟩ := returns_of_isDone he hdone
    have htick := hover _ (Context.dueBy_of_isDone hdone (Nat.le_refl _))
    refine ⟨fun x hx => ?_, o, hstatus, htick, hmoment⟩
    by_contra hcall
    have hmem : x ∈ run.journal := by
      rw [hsplit]
      exact List.mem_append_right _ (List.mem_cons_of_mem _ hx)
    have hlive := call_live hmem (Bool.of_not_eq_false hcall)
    rw [show (p.run ctx ops l ws).journal = before ++ e :: after from hsplit, Entry.lines_append]
      at hcourse
    have hlater := hcourse.after.1 x.line (List.mem_map_of_mem hx)
    have hstill := Context.isDone_of_before hlater hdone
    simp [Context.isDone, hlive] at hstill
  · intro d hd
    obtain ⟨hnow, hstatus⟩ := over_by_of_becomesDone hd
    refine ⟨fun e he => ?_, hnow, hstatus, fun least hwait hmany => ?_⟩
    · exact Nat.le_trans (hcourse.mem (List.mem_map_of_mem he)).2.now_le hnow
    · rcases hstatus with hreturned | ⟨hstarved, -⟩
      · exact hreturned
      · have hapart := starved_apart hwait hstarved
        omega

/-- A run of patience: a hanging operation is cut off at the tick after the deadline, a wait of a
day ends with the cancellation that was planned, and an operation that cancels the caller's context
is not given the hour that it asks for. An operation that hears of something two tenths of a
millisecond after the deadline goes on until the tick. -/
theorem nothing_runs_when_done_soon :
    let patient : Policy Reason :=
      { ofReasons 0 .allErrors none with backoff := .constant Duration.day }
    let fails : Operation Empty Reason Nat := fun _ => .finish (.error .deadlineExceeded)
    let revokes : Operation Empty Reason Nat := fun _ =>
      .sleep 3000000 (.cancel (.root 0) (.sleep (Duration.ofSecs 3600) (.finish (.ok 7))))
    let hangs : Operation Empty Reason Nat := fun _ => .hang
    let free : Context := ⟨.root 0, none⟩
    let late : Timeline := ({} : Timeline).plan 7000000 (.root 0)
    let hears : Operation Nat Reason Nat := fun _ =>
      .untilDone ⟨.root 1, none⟩ fun _ => .note 9 .hang
    let soon : Context := ⟨.root 0, some 500000⟩
    let hung := patient.run ⟨.root 0, some 1500000⟩ [hangs] {} []
    let waited := patient.run free [fails] late []
    let revoked := patient.run free [revokes, fails] {} []
    let heard := patient.run soon [hears] (({} : Timeline).plan 700000 (.root 1)) []
    let entry : Entry Nat Reason Nat := ⟨⟨700000, [.root 1], [], 0⟩, .noted 9⟩
    (hung.line.now ≤ 2000000 ∧ hung.status = .returned (.failure .deadlineExceeded 1 .cancelled)) ∧
      (waited.line.now ≤ 7000000 ∧ ∃ o, waited.status = .returned o) ∧
      (revoked.line.now ≤ 3000000 ∧ Entry.pick Event.invocation? revoked.journal = [1]) ∧
      (entry ∈ heard.journal ∧ soon.isDone entry.line = true ∧ heard.line.now = 1000000 ∧
        ∃ o, heard.status = .returned o) := by
  intro patient fails revokes hangs free late hears soon hung waited revoked heard entry
  have hdeadline : patient.BecomesDone ⟨.root 0, some 1500000⟩ [hangs] {} [] 1500000 :=
    .deadline rfl
  have hplan : (⟨7000000, .root 0⟩ : Plan) ∈ late.planned := List.mem_cons_self
  have hplanned : patient.BecomesDone free [fails] late [] 7000000 := .planned hplan (by decide)
  have hmade : Made [revokes, fails] revoked.journal 1 revokes free {} :=
    ⟨⟨0, rfl, rfl⟩, none, by decide +kernel⟩
  have htoken : ((⟨3000000, [.root 0], [], 0⟩ : Timeline), Token.root 0) ∈
      (revokes free).revoked free {} := by decide +kernel
  have hrevoked : patient.BecomesDone free [revokes, fails] {} [] 3000000 :=
    .revoked hmade htoken (by decide)
  have hday : ∀ now number (e : Reason) ws,
      now + Duration.day ≤ patient.sleeper.wake now (patient.delayFor (number + 1) e ws).1 := by
    intro now number e ws
    have hdelay : (patient.delayFor (number + 1) e ws).1 = Duration.day := by
      simp [patient, delayFor, hint?, ofReasons, Jitter.apply, Backoff.delay, Backoff.uncapped,
        Backoff.cap?]
    rw [hdelay]
    exact Sleeper.le_wake_timer Duration.day_le_farAway now
  have hentry : entry ∈ heard.journal := by decide +kernel
  have hdone : soon.isDone entry.line = true := by decide
  refine ⟨⟨?_, by decide +kernel⟩, ?_, ⟨?_, by decide +kernel⟩, hentry, hdone, by decide +kernel, ?_⟩
  · exact ((nothing_runs_when_done patient _ _ _ _).2.2 _ hdeadline).2.1
  · obtain ⟨-, hnow, -, hreturns⟩ := (nothing_runs_when_done patient _ _ _ _).2.2 _ hplanned
    exact ⟨hnow, hreturns Duration.day hday (by decide)⟩
  · exact ((nothing_runs_when_done patient _ _ _ _).2.2 _ hrevoked).2.1
  · obtain ⟨before, after, hsplit⟩ := List.append_of_mem hentry
    obtain ⟨-, o, hstatus, -⟩ := (nothing_runs_when_done patient _ _ _ _).2.1 before entry after
      hsplit hdone
    exact ⟨o, hstatus⟩

end Policy

end Retry
