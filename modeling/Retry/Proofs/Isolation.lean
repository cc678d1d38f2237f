import Retry.Proofs.Faced
import Retry.Proofs.Revoked
import Retry.Proofs.Settings

namespace Retry

/-- Work that is still going on at the tick of its deadline is cut off, by then at the latest. -/
theorem Task.cutOff_of_pending {η ε α : Type} {ctx : Context} {t : Task η ε α} {l : Timeline}
    {d : Nat} (hd : ctx.deadline = some d) (hnow : l.now ≤ Duration.tick d)
    (hpending : ∀ r finish, t.alone l = some (r, finish) → Duration.tick d < finish.now) :
    ∃ reason, (t.play ctx l).ending = .cutOff reason ∧
      ctx.err (t.play ctx l).line = some reason ∧ (t.play ctx l).line.now ≤ Duration.tick d := by
  obtain ⟨hover, hends⟩ := (plays_play ctx t l).over_by
    (Context.dueBy_of_deadline hd hnow (Nat.le_refl _))
  have hwatched := t.watched_play ctx l
  cases hending : (t.play ctx l).ending with
  | stuck => exact absurd hending hends
  | finished r =>
    rw [hending] at hwatched
    cases hwatched with
    | finished halone => exact absurd hover (Nat.not_le.mpr (hpending r _ halone))
  | cutOff reason =>
    exact ⟨reason, rfl, Context.err_of_signal (signal_of_cutOff hending), hover⟩

/-- A context is found cancelled behind watched work if it was before it, or if the work or a plan
that came due meanwhile cancelled it. -/
theorem Task.err_play_eq_cancelled_iff {η ε α : Type} (ctx : Context) (t : Task η ε α)
    (l : Timeline) : ctx.err (t.play ctx l).line = some .cancelled ↔
      l.isCancelled ctx.token = true ∨
        (∃ line token, (line, token) ∈ t.revoked ctx l ∧ token.covers ctx.token = true) ∨
        ∃ plan ∈ l.planned, plan ∉ (t.play ctx l).line.planned ∧
          plan.token.covers ctx.token = true := by
  rw [Context.err_eq_cancelled_iff, (plays_play ctx t l).onward.isCancelled_iff]
  refine or_congr_right (or_congr_left ?_)
  constructor
  · rintro ⟨token, hmem, hc⟩
    obtain ⟨⟨line, _⟩, hrevoked, rfl⟩ := List.mem_map.mp hmem
    exact ⟨line, _, hrevoked, hc⟩
  · rintro ⟨line, token, hrevoked, hc⟩
    exact ⟨token, List.mem_map_of_mem (f := (·.2)) hrevoked, hc⟩

theorem Context.now_lt_of_live {c : Context} {l : Timeline} {d : Nat} (hlive : c.err l = none)
    (hd : c.deadline = some d) : l.now < d := by
  refine Nat.lt_of_not_le fun hle => ?_
  have hdone := isDone_of_deadline hd hle
  simp [isDone, hlive] at hdone

/-- A deadline that has not passed is not earlier than now, nor is the earlier of two such. -/
theorem Context.le_earlier {c : Context} {l : Timeline} {m : Nat} (hlive : c.err l = none)
    (hm : l.now ≤ m) : l.now ≤ earlier c.deadline m := by
  cases hd : c.deadline with
  | none => exact hm
  | some d => exact Nat.le_min.mpr ⟨Nat.le_of_lt (now_lt_of_live hlive hd), hm⟩

namespace Policy

section Own

variable {ε : Type} {p : Policy ε} {timeout : Nat}

/-- When an attempt with this timeout ends that starts at `now` under `ctx`: after the timeout, if a
clock can show that moment, or with the caller's deadline if that is sooner. -/
def timedDeadline (ctx : Context) (now timeout : Nat) : Option Nat :=
  if Duration.Shown (now + timeout) then some (Context.earlier ctx.deadline (now + timeout))
  else ctx.deadline

/-- The context of a timed attempt is below the caller's. -/
theorem attemptContext_timed (ht : p.attemptTimeout = some timeout) (ctx : Context)
    (l : Timeline) : p.attemptContext ctx l =
      (⟨ctx.token.child l.issued, timedDeadline ctx l.now timeout⟩,
        { l with issued := l.issued + 1 }) := by
  simp only [attemptContext, ht, Context.withTimeout, timedDeadline]
  by_cases hshown : Duration.Shown (l.now + timeout)
  · rw [Duration.later?_of_shown hshown, if_pos hshown]
    rfl
  · rw [Duration.later?_of_not_shown hshown, if_neg hshown]
    rfl

/-- A timed attempt starts no later than its deadline. -/
theorem now_le_of_attemptContext (ht : p.attemptTimeout = some timeout) {ctx own : Context}
    {l start : Timeline} {d : Nat} (hlive : ctx.err l = none)
    (hown : p.attemptContext ctx l = (own, start)) (hd : own.deadline = some d) :
    start.now ≤ d := by
  rw [attemptContext_timed ht] at hown
  obtain ⟨rfl, rfl⟩ := Prod.mk.inj hown
  simp only [timedDeadline] at hd
  split at hd
  · rw [← Option.some.inj hd]
    exact Context.le_earlier hlive (Nat.le_add_right _ _)
  · exact Nat.le_of_lt (Context.now_lt_of_live hlive hd)

end Own

variable {η ε α : Type} [OfReason ε] {p : Policy ε} {ctx : Context} {op : Operation η ε α}
  {ops rest : List (Operation η ε α)} {l : Timeline} {ws : Words} {s : Loop}
  {journal : List (Entry η ε α)}

theorem Made.token_timed {number timeout : Nat} {own : Context} {start : Timeline}
    (h : Made ops (p.run ctx ops l ws).journal number op own start)
    (ht : p.attemptTimeout = some timeout) : ∃ n, own.token = ctx.token.child n := by
  obtain ⟨rest, s, journal, -, -, -, hown⟩ := made_iff.mp h
  refine ⟨s.line.issued, ?_⟩
  rw [← token_attemptContext ht ctx s.line, hown]

/-- An attempt that has a deadline ends. -/
theorem resultOf_ne_none_of_deadline {own : Context} {d : Nat} (hd : own.deadline = some d)
    (op : Operation η ε α) (start : Timeline) :
    resultOf ((op own).play own start).ending ≠ none :=
  resultOf_ne_none ((Task.plays_play own (op own) start).over_by
    (Context.dueBy_of_deadline hd (Nat.le_max_left _ _) (Nat.le_max_right start.now _))).2

/-- Timed attempts are isolated from the caller's context. Each is given a context below it that
ends with the timeout, or with the caller's deadline if that is sooner, and leaves it cancelled. If
it fails, the run is abandoned if the caller's context is done by then, and faces the failure if it
is not. An attempt that is still going on at the tick of its deadline fails with that, or with the
cancellation of its context if someone has cancelled it by then; and none is cut off but by the
signal of its context, strictly before it would end. And the caller's context is cancelled by none
but its operations and those who planned it. -/
theorem attempts_isolated {p : Policy ε} {timeout : Nat} (ht : p.attemptTimeout = some timeout)
    (ctx : Context) (ops : List (Operation η ε α)) (l : Timeline) (ws : Words) :
    let run := p.run ctx ops l ws
    (∀ number own err start, ⟨start, .invoked number own err⟩ ∈ run.journal →
      (∃ n, own.token = ctx.token.child n) ∧
      own.deadline = timedDeadline ctx start.now timeout ∧
      ∃ op, Made ops run.journal number op own start) ∧
    (∀ number op own start, Made ops run.journal number op own start →
      let played := (op own).play own start
      (own.deadline ≠ none → resultOf played.ending ≠ none) ∧
      ∀ result, resultOf played.ending = some result →
        ∃ before after, run.journal = before ++ ⟨start, .invoked number own (own.err start)⟩ ::
            (played.notes.map (fun note => ⟨note.1, .noted note.2⟩) ++
              ⟨played.line, .ended result⟩ :: after) ∧
          (∀ e ∈ after, own.err e.line = some .cancelled) ∧
          own.err run.line = some .cancelled ∧
          ctx.err (own.cancel played.line) = ctx.err played.line ∧
          ∀ e, result = .error e →
            (∀ reason, ctx.err played.line = some reason → run.status = abandon reason number) ∧
            (ctx.err played.line = none →
              p.Faces ctx ops l ws number e (own.cancel played.line) after)) ∧
    (∀ number op own start d, Made ops run.journal number op own start →
      own.deadline = some d →
      (∀ r finish, (op own).alone start = some (r, finish) → Duration.tick d < finish.now) →
      let played := (op own).play own start
      ∃ reason, resultOf played.ending = some (.error (OfReason.ofReason reason)) ∧
        own.err played.line = some reason ∧ played.line.now ≤ Duration.tick d ∧
        (reason = .cancelled ↔ start.isCancelled own.token = true ∨
          (∃ line t, (line, t) ∈ (op own).revoked own start ∧ t.covers own.token = true) ∨
          ∃ plan ∈ start.planned, plan ∉ played.line.planned ∧
            plan.token.covers own.token = true)) ∧
    (∀ number op own start reason, Made ops run.journal number op own start →
      let played := (op own).play own start
      played.ending = .cutOff reason → own.signal played.line = some reason ∧
        ∀ r finish, (op own).alone start = some (r, finish) → played.line.now < finish.now) ∧
    (ctx.err run.line = some .cancelled ↔ l.isCancelled ctx.token = true ∨
      (∃ plan ∈ l.planned, plan ∉ run.line.planned ∧ plan.moment ≤ run.line.now ∧
        plan.token.covers ctx.token = true) ∨
      ∃ t, p.Revokes ctx ops l ws t ∧ t.covers ctx.token = true) ∧
    (ctx.err run.line = some .deadlineExceeded ↔
      ctx.err run.line ≠ some .cancelled ∧ ∃ d ∈ ctx.deadline, d ≤ run.line.now) := by
  intro run
  refine ⟨?_, ?_, ?_, ?_, err_run_eq_cancelled_iff, Context.err_eq_deadlineExceeded_iff⟩
  · intro number own err start hmem
    obtain ⟨op, hmade⟩ := exists_made hmem
    obtain ⟨rest, s, journal, -, -, -, hown⟩ := made_iff.mp hmade
    rw [attemptContext_timed ht] at hown
    obtain ⟨rfl, rfl⟩ := Prod.mk.inj hown
    exact ⟨⟨_, rfl⟩, rfl, op, hmade⟩
  · intro number op own start hmade played
    refine ⟨fun hd => ?_, fun result hresult => ?_⟩
    · obtain ⟨d, hd⟩ := Option.ne_none_iff_exists'.mp hd
      exact resultOf_ne_none_of_deadline hd op start
    obtain ⟨before, after, hjournal, hcourse, hfaced⟩ := hmade.faced
    have hrelease : p.release own played.line = own.cancel played.line := by
      simp only [release, ht, Option.isSome_some, if_true]
    rw [hrelease] at hcourse hfaced
    obtain ⟨n, htoken⟩ := hmade.token_timed ht
    have hcancelled : (own.cancel played.line).isCancelled own.token = true := by
      rw [Context.cancel, Timeline.isCancelled_cancel, Token.covers_refl, Bool.true_or]
    refine ⟨before, after, ?_, fun e he => ?_, ?_, ?_, ?_⟩
    · have hentries : entriesOf ((op own).play own start) =
          played.notes.map (fun note => ⟨note.1, .noted note.2⟩) ++
            [⟨played.line, .ended result⟩] := by
        rw [entriesOf, show resultOf ((op own).play own start).ending = _ from hresult]
        rfl
      rw [hentries, List.append_assoc, List.singleton_append] at hjournal
      exact hjournal
    · have hlater := (hcourse.mem (List.mem_map_of_mem he)).1
      exact Context.err_of_isCancelled (hlater.isCancelled hcancelled)
    · exact Context.err_of_isCancelled (hcourse.before.isCancelled hcancelled)
    · rw [Context.cancel, htoken]
      exact ctx.err_cancel_child _ n
    · rintro e rfl
      exact hfaced e hresult
  · intro number op own start d hmade hd hpending played
    obtain ⟨rest, s, journal, -, hlive, rfl, hown⟩ := made_iff.mp hmade
    have hnow := Nat.le_trans (now_le_of_attemptContext ht hlive hown hd) (Duration.le_tick d)
    obtain ⟨reason, hending, hreason, hover⟩ := Task.cutOff_of_pending hd hnow hpending
    refine ⟨reason, by rw [hending]; rfl, hreason, hover, ?_⟩
    rw [← Option.some_inj, ← hreason]
    exact Task.err_play_eq_cancelled_iff own (op own) start
  · intro number op own start reason hmade played hending
    exact ⟨Task.signal_of_cutOff hending, fun r finish => Task.lt_of_cutOff hending⟩

/-- A hung attempt fails with its deadline, and the next one comes to a value; where the caller's
deadline is the same, the run is abandoned. -/
theorem attempts_isolated_hung :
    let timed := ofReasons 3 .allErrors (some (Duration.ofMillis 5))
    let hangs : Operation Empty Reason Nat := fun _ => .hang
    let ops : List (Operation Empty Reason Nat) := [hangs, fun _ => .finish (.ok 7)]
    let free : Context := ⟨.root 0, none⟩
    let bound : Context := ⟨.root 0, some 5000000⟩
    let own : Context := ⟨⟨[0, 0]⟩, some 5000000⟩
    let start : Timeline := { issued := 1 }
    let run := timed.run free ops {} []
    let cut := timed.run bound ops {} []
    timed.attemptTimeout = some 5000000 ∧
      (Made ops run.journal 1 hangs own start ∧ own.deadline = some 5000000 ∧
        (hangs own).alone start = none ∧
        resultOf ((hangs own).play own start).ending = some (.error .deadlineExceeded) ∧
        own.err run.line = some .cancelled ∧ run.status = .returned (.success 7 2)) ∧
      (Made ops cut.journal 1 hangs own start ∧ cut.status = abandon .deadlineExceeded 1) := by
  intro timed hangs ops free bound own start run cut
  have hmade : Made ops run.journal 1 hangs own start := ⟨⟨0, rfl, rfl⟩, none, by decide +kernel⟩
  have hcut : Made ops cut.journal 1 hangs own start := ⟨⟨0, rfl, rfl⟩, none, by decide +kernel⟩
  have hreason : own.err ((hangs own).play own start).line = some .deadlineExceeded := by
    decide +kernel
  obtain ⟨-, hends, hpending, -⟩ := attempts_isolated (p := timed) rfl free ops {} []
  obtain ⟨-, hendsCut, -⟩ := attempts_isolated (p := timed) rfl bound ops {} []
  have hresult : resultOf ((hangs own).play own start).ending =
      some (.error (.deadlineExceeded : Reason)) := by
    obtain ⟨reason, hresult, herr, -⟩ := hpending 1 hangs own start _ hmade rfl nofun
    obtain rfl := Option.some.inj (herr.symm.trans hreason)
    exact hresult
  obtain ⟨before, after, -, -, hcancelled, -⟩ := (hends 1 hangs own start hmade).2 _ hresult
  obtain ⟨_, _, -, -, -, -, hfailed⟩ := (hendsCut 1 hangs own start hcut).2 _ hresult
  exact ⟨rfl, ⟨hmade, rfl, rfl, hresult, hcancelled, by decide +kernel⟩, hcut,
    (hfailed _ rfl).1 .deadlineExceeded (by decide +kernel)⟩

/-- Work that is pending when its deadline passes need not fail with that. It may come to its value
at the tick at which that is noticed, or cancel its own context in that very moment. And where no
clock can show the moment at which the timeout is over, an attempt has no deadline from it. -/
theorem pending_past_deadline :
    let timed := fun timeout => ofReasons 1 .allErrors (some timeout)
    let late : Operation Empty Reason Nat := fun _ => .sleep 2000000 (.finish (.ok 7))
    let revokes : Operation Empty Reason Nat := fun own =>
      .sleep 5000000 (.cancel own.token .hang)
    let ctx : Context := ⟨.root 0, none⟩
    let own : Nat → Context := fun timeout => ⟨⟨[0, 0]⟩, some timeout⟩
    let start : Timeline := { issued := 1 }
    let last : Timeline := { now := Duration.clockEnd - 1 }
    (Made [late] ((timed 1500000).run ctx [late] {} []).journal 1 late (own 1500000) start ∧
        (late (own 1500000)).alone start = some (.ok 7, start.advanceTo 2000000) ∧
        resultOf ((late (own 1500000)).play (own 1500000) start).ending = some (.ok 7) ∧
        ctx.err ((late (own 1500000)).play (own 1500000) start).line = none) ∧
      (Made [revokes] ((timed 5000000).run ctx [revokes] {} []).journal 1 revokes (own 5000000)
          start ∧
        (revokes (own 5000000)).alone start = none ∧
        resultOf ((revokes (own 5000000)).play (own 5000000) start).ending =
          some (.error .cancelled) ∧
        (.cancelled : Reason) ≠ .deadlineExceeded ∧
        ctx.err ((revokes (own 5000000)).play (own 5000000) start).line = none) ∧
      (Made [late] ((timed 1500000).run ctx [late] last []).journal 1 late ⟨⟨[0, 0]⟩, none⟩
          { last with issued := 1 } ∧
        (none : Option Nat) ≠ some (Context.earlier ctx.deadline (last.now + 1500000))) := by
  intro timed late revokes ctx own start last
  have hlate : Made [late] ((timed 1500000).run ctx [late] {} []).journal 1 late (own 1500000)
      start := ⟨⟨0, rfl, rfl⟩, none, by decide +kernel⟩
  have hrevokes : Made [revokes] ((timed 5000000).run ctx [revokes] {} []).journal 1 revokes
      (own 5000000) start := ⟨⟨0, rfl, rfl⟩, none, by decide +kernel⟩
  have hlast : Made [late] ((timed 1500000).run ctx [late] last []).journal 1 late
      ⟨⟨[0, 0]⟩, none⟩ { last with issued := 1 } := ⟨⟨0, rfl, rfl⟩, none, by decide +kernel⟩
  exact ⟨⟨hlate, by decide +kernel, by decide +kernel, by decide +kernel⟩,
    ⟨hrevokes, rfl, by decide +kernel, by decide, by decide +kernel⟩, hlast, nofun⟩

end Policy

end Retry
