import Retry.Proofs.Beside
import Retry.Proofs.Isolation
import Retry.Proofs.Lockstep
import Retry.Proofs.Sleeping

namespace Retry

namespace Event

variable {η ε α : Type}

/-- The event as it is where every attempt is made under `ctx`. -/
def under (ctx : Context) : Event η ε α → Event η ε α
  | invoked attempt _ err => invoked attempt ctx err
  | e => e

theorem invocation_under (ctx : Context) (e : Event η ε α) :
    (e.under ctx).invocation? = e.invocation? := by cases e <;> rfl

theorem sleep_under (ctx : Context) (e : Event η ε α) : (e.under ctx).sleep? = e.sleep? := by
  cases e <;> rfl

end Event

namespace Entry

variable {η ε α β : Type}

/-- When an entry was written and what it says, with every attempt made under `ctx`. -/
def told (ctx : Context) (e : Entry η ε α) : Nat × Event η ε α := (e.moment, e.event.under ctx)

/-- Journals that tell the same go on telling the same with events of the same moment. -/
theorem told_concat {ctx : Context} {journal journal' : List (Entry η ε α)}
    (h : journal'.map (told ctx) = journal.map (told ctx)) {l l' : Timeline} (hnow : l'.now = l.now)
    (events : List (Event η ε α)) :
    (journal' ++ allAt l' events).map (told ctx) = (journal ++ allAt l events).map (told ctx) := by
  simp only [List.map_append, h, allAt, List.map_map, told, moment, hnow, Function.comp_def]

theorem filterMap_told_iff {ctx : Context} {journal journal' : List (Entry η ε α)} :
    ((journal'.filterMap fun e => some (told ctx e)) =
        journal.filterMap fun e => some (told ctx e)) ↔
      journal'.map (told ctx) = journal.map (told ctx) := by
  rw [← List.filterMap_eq_map]
  rfl

theorem pick_of_told {ctx : Context} {f : Event η ε α → Option β}
    (hf : ∀ e : Event η ε α, f (e.under ctx) = f e) {journal journal' : List (Entry η ε α)}
    (h : journal'.map (told ctx) = journal.map (told ctx)) : pick f journal' = pick f journal := by
  have hpick : ∀ j : List (Entry η ε α), pick f j = (j.map (told ctx)).filterMap (f ·.2) := by
    intro j
    simp only [pick, List.filterMap_map, told, Function.comp_def, hf]
  rw [hpick, hpick, h]

theorem stamps_of_told {ctx : Context} {f : Event η ε α → Option β}
    (hf : ∀ e : Event η ε α, f (e.under ctx) = f e) {journal journal' : List (Entry η ε α)}
    (h : journal'.map (told ctx) = journal.map (told ctx)) :
    stamps f journal' = stamps f journal := by
  have hstamps : ∀ j : List (Entry η ε α), stamps f j =
      (j.map (told ctx)).filterMap fun e => (f e.2).map fun _ => e.1 := by
    intro j
    simp only [stamps, List.filterMap_map, told, Function.comp_def, hf]
  rw [hstamps, hstamps, h]

end Entry

/-- Work gives out no tokens. -/
theorem Task.Plays.issued {η ε α : Type} {ctx : Context} {t : Task η ε α} {l : Timeline}
    {cancels : List (Timeline × Token)} {q : Played η ε α} (h : Plays ctx t l cancels q) :
    q.line.issued = l.issued := by
  induction h with
  | finish | stuck | cutOff => rfl
  | note h ih | cancel h ih | sleep hwake h ih | untilDone hother hreason hwake h ih => exact ih

namespace Policy

variable {η ε α : Type}

/-- The policy with a timeout for each attempt. -/
def timed (p : Policy ε) (timeout : Nat) : Policy ε := { p with attemptTimeout := some timeout }

theorem build_timed (p : Policy ε) {timeout : Nat} (hpos : 0 < timeout)
    (hday : timeout ≤ Duration.day) :
    (p.toBuilder.set (.attemptTimeout timeout)).build = .ok (p.timed timeout) := by
  have hzero : (p.timed timeout).attemptTimeout ≠ some 0 := by
    intro h
    exact absurd (Option.some.inj h) (Nat.ne_of_gt hpos)
  refine build_toBuilder hzero fun t ht => ?_
  rw [← Option.some.inj ht]
  exact hday

/-- A timed attempt is made inside the caller's context. -/
theorem attemptContext_inside (p : Policy ε) (timeout : Nat) (ctx : Context) (l : Timeline) :
    ∃ own, ctx.Inside l.issued (l.now + timeout) own ∧
      (p.timed timeout).attemptContext ctx l = (own, { l with issued := l.issued + 1 }) := by
  refine ⟨_, ⟨rfl, ?_⟩, attemptContext_timed rfl ctx l⟩
  simp only [timedDeadline]
  split
  · by_cases hends : ctx.EndsBy (l.now + timeout)
    · obtain ⟨d, hd, hle⟩ := hends
      have hdeadline : ctx.deadline = some d := hd
      exact Or.inl (by rw [hdeadline, Context.earlier, Nat.min_eq_left hle])
    · refine Or.inr ⟨?_, hends⟩
      cases hd : ctx.deadline with
      | none => rfl
      | some d =>
        have hlate : l.now + timeout ≤ d := Nat.le_of_not_le fun hle => hends ⟨d, hd, hle⟩
        rw [Context.earlier, Nat.min_eq_right hlate]
  · exact Or.inl rfl

/-- What an operation does, it does under whatever context, and it names no token that was not given
out before the run. -/
structure Heedless (bound : Nat) (ctx : Context) (op : Operation η ε α) : Prop where
  ignores : ∀ own, op own = op ctx
  old : (op ctx).Old bound

/-- Where a run without the timeout and the same run with it stand before an attempt. -/
structure Loop.Beside (bound : Nat) (ctx : Context) (s s' : Loop) : Prop where
  line : s.line.Beside bound s'.line.issued ctx.token s'.line
  issued : bound ≤ s'.line.issued
  words : s'.words = s.words
  budget : s'.budget = s.budget
  attempts : s'.attempts = s.attempts

theorem backOff_beside (p : Policy ε) (timeout : Nat) {ctx : Context} {bound n : Nat}
    {l l' : Timeline} (h : l.Beside bound n ctx.token l') (hn : bound ≤ n)
    (hctx : ctx.token.Old bound) (delay : Nat) :
    ∃ moment, (p.backOff ctx delay l).1 = l.advanceTo moment ∧
      (p.timed timeout).backOff ctx delay l' =
        (l'.advanceTo moment, (p.backOff ctx delay l).2) := by
  simp only [backOff, timed, h.signalAt hctx, h.now]
  cases hm : ctx.signalAt l with
  | none => exact ⟨_, rfl, rfl⟩
  | some moment =>
    by_cases hle : moment ≤ p.sleeper.wake l.now delay
    · simp only [if_pos hle]
      exact ⟨moment, rfl, by rw [(h.advanceTo hn moment).signal hctx]⟩
    · simp only [if_neg hle]
      exact ⟨_, rfl, rfl⟩

variable [OfReason ε] {p : Policy ε} {ctx : Context} {op : Operation η ε α}
  {ops rest : List (Operation η ε α)} {l : Timeline} {ws : Words} {s s' : Loop}
  {journal : List (Entry η ε α)} {bound timeout : Nat}

omit [OfReason ε] in
theorem watched_timed {own : Context} {start : Timeline}
    (hown : (p.timed timeout).attemptContext ctx l = (own, start)) :
    (p.timed timeout).watched ctx op l = (op own).play own start := by
  simp only [watched, hown]

omit [OfReason ε] in
theorem watched_alike (hp : p.attemptTimeout = none) (h : s.Beside bound ctx s')
    (hop : Heedless bound ctx op)
    (hover : (p.watched ctx op s.line).OverBy ctx (s.line.now + timeout)) :
    (p.watched ctx op s.line).Alike bound s'.line.issued ctx.token
      ((p.timed timeout).watched ctx op s'.line) := by
  obtain ⟨own, hin, hown⟩ := p.attemptContext_inside timeout ctx s'.line
  have hplain : p.watched ctx op s.line = (op ctx).play ctx s.line := by
    simp only [watched, attemptContext, hp]
  rw [hplain, ← h.line.now] at hover
  rw [hplain, watched_timed hown, hop.ignores own]
  exact Task.play_alike hin (h.line.issue _) h.issued hop.old hover

/-- After an attempt the runs stand beside each other again. -/
theorem line_tried_beside (hp : p.attemptTimeout = none) (h : s.Beside bound ctx s')
    (hop : Heedless bound ctx op)
    (hover : (p.watched ctx op s.line).OverBy ctx (s.line.now + timeout)) :
    (p.tried ctx op s).line.Beside bound ((p.timed timeout).tried ctx op s').line.issued ctx.token
        ((p.timed timeout).tried ctx op s').line ∧
      bound ≤ ((p.timed timeout).tried ctx op s').line.issued := by
  have hwatched := watched_alike hp h hop hover
  obtain ⟨own, hin, hown⟩ := p.attemptContext_inside timeout ctx s'.line
  have hline : (p.tried ctx op s).line = (p.watched ctx op s.line).line := by
    simp only [line_tried, release, hp, Option.isSome_none, Bool.false_eq_true, if_false]
  have hreleased : ((p.timed timeout).tried ctx op s').line =
      ((p.timed timeout).watched ctx op s'.line).line.cancel (ctx.token.child s'.line.issued) := by
    rw [line_tried, hown, ← hin.token]
    rfl
  have hissued : ((p.timed timeout).watched ctx op s'.line).line.issued = s'.line.issued + 1 := by
    rw [watched_timed hown]
    exact (Task.plays_play _ _ _).issued
  rw [hreleased, hline]
  have hbound := h.issued
  constructor
  · show Timeline.Beside bound ((p.timed timeout).watched ctx op s'.line).line.issued _ _ _
    rw [hissued]
    exact hwatched.line.release h.issued
  · show bound ≤ ((p.timed timeout).watched ctx op s'.line).line.issued
    omega

theorem told_tried (hpos : 0 < timeout) (hp : p.attemptTimeout = none)
    (h : s.Beside bound ctx s') (hop : Heedless bound ctx op) (hlive : ctx.err s.line = none)
    (hover : (p.watched ctx op s.line).OverBy ctx (s.line.now + timeout)) :
    ((p.timed timeout).tried ctx op s').journal.map (Entry.told ctx) =
      (p.tried ctx op s).journal.map (Entry.told ctx) := by
  have hwatched := watched_alike hp h hop hover
  obtain ⟨own, hin, hown⟩ := p.attemptContext_inside timeout ctx s'.line
  have hplain : p.attemptContext ctx s.line = (ctx, s.line) := by simp only [attemptContext, hp]
  have hstart : own.err { s'.line with issued := s'.line.issued + 1 } = none := by
    refine hin.err_of_live (h.line.issue _) hlive ?_
    rw [h.line.now]
    omega
  have hnotes : ∀ q : Played η ε α,
      (q.notes.map fun note => (⟨note.1, .noted note.2⟩ : Entry η ε α)).map (Entry.told ctx) =
        (q.notes.map fun note => (note.1.now, note.2)).map fun note => (note.1, .noted note.2) := by
    intro q
    rw [List.map_map, List.map_map]
    rfl
  rw [tried, tried, journal_attempt, journal_attempt, result_attempt, result_attempt, hplain,
    hown, hstart, hlive, hwatched.ending, h.attempts]
  simp only [List.map_cons, List.map_append, hnotes, hwatched.notes, List.map_map, Entry.told,
    Entry.moment, Event.under, Function.comp_def, h.line.now, hwatched.line.now]

/-- A round turns out alike with the timeout, and the runs stand beside each other after it. -/
theorem round_beside (hpos : 0 < timeout) (hp : p.attemptTimeout = none)
    (hctx : ctx.token.Old bound) (h : s.Beside bound ctx s') (hop : Heedless bound ctx op)
    (hlive : ctx.err s.line = none)
    (hover : (p.watched ctx op s.line).OverBy ctx (s.line.now + timeout)) :
    (p.round ctx op s).Alike (fun e => some (e.told ctx)) (fun l l' => l'.now = l.now)
      (Loop.Beside bound ctx) ((p.timed timeout).round ctx op s') := by
  have hwatched := watched_alike hp h hop hover
  obtain ⟨hline, hissued⟩ := line_tried_beside hp h hop hover
  have htold := told_tried hpos hp h hop hlive hover
  have hresult : ((p.timed timeout).tried ctx op s').result = (p.tried ctx op s).result := by
    rw [tried, tried, result_attempt, result_attempt, hwatched.ending]
  have herr := hline.err hctx
  have hview :
      ctx.view ((p.timed timeout).tried ctx op s').line = ctx.view (p.tried ctx op s).line := by
    simp only [Context.view, hline.now, herr]
  have hdecision : ∀ e, (p.timed timeout).decision (η := η) (α := α)
      (ctx.view ((p.timed timeout).tried ctx op s').line) (s'.attempts + 1) e s'.budget s'.words =
        p.decision (ctx.view (p.tried ctx op s).line) (s.attempts + 1) e s.budget s.words := by
    intro e
    rw [hview, h.attempts, h.budget, h.words]
    rfl
  have hturn := p.turn_round ctx op s
  generalize p.round ctx op s = r at hturn ⊢
  cases hturn with
  | stuck hr =>
    rw [(Turn.stuck (hresult.trans hr)).round_eq]
    exact .stop (Entry.filterMap_told_iff.mpr htold) hline.now
  | value hr =>
    rw [(Turn.value (hresult.trans hr)).round_eq, h.attempts]
    exact .stop (Entry.filterMap_told_iff.mpr htold) hline.now
  | lost hr hdone =>
    rw [(Turn.lost (hresult.trans hr) (herr.trans hdone)).round_eq, h.attempts]
    exact .stop (Entry.filterMap_told_iff.mpr (Entry.told_concat htold hline.now _)) hline.now
  | stopped hr hafter hd =>
    have hd' := (hdecision _).trans hd
    rw [(Turn.stopped (hresult.trans hr) (herr.trans hafter) hd').round_eq, h.attempts]
    exact .stop (Entry.filterMap_told_iff.mpr (Entry.told_concat htold hline.now _)) hline.now
  | @interrupted e events b delay words line reason hr hafter hd hb =>
    have hd' := (hdecision _).trans hd
    obtain ⟨moment, hmoment, hb'⟩ := p.backOff_beside timeout hline hissued hctx delay
    rw [hb] at hmoment hb'
    obtain rfl : line = _ := hmoment
    have hlater := (hline.advanceTo hissued moment).now
    rw [(Turn.interrupted (hresult.trans hr) (herr.trans hafter) hd' hb').round_eq, h.attempts]
    refine .stop (Entry.filterMap_told_iff.mpr ?_) hlater
    rw [← List.append_assoc, ← List.append_assoc,
      Entry.told_concat (Entry.told_concat htold hline.now _) hlater]
  | @again e events b delay words line hr hafter hd hb =>
    have hd' := (hdecision _).trans hd
    obtain ⟨moment, hmoment, hb'⟩ := p.backOff_beside timeout hline hissued hctx delay
    rw [hb] at hmoment hb'
    obtain rfl : line = _ := hmoment
    rw [(Turn.again (hresult.trans hr) (herr.trans hafter) hd' hb').round_eq]
    have hattempts := congrArg (· + 1) h.attempts
    exact .again (Entry.filterMap_told_iff.mpr (Entry.told_concat htold hline.now _))
      ⟨hline.advanceTo hissued moment, hissued, rfl, rfl, hattempts⟩

/-- A timeout of up to a day that every attempt meets changes nothing. Where each attempt that is
made without it is over when it would end, or is made under a context that ends by then, the policy
that has the timeout and else the same settings ends alike and at the same time, and its journal
tells the same at the same moments, the attempts and the requested sleeps among it. -/
theorem timeout_met_changes_nothing (p : Policy ε) (hp : p.attemptTimeout = none)
    (hpos : 0 < timeout) (hday : timeout ≤ Duration.day) (ctx : Context)
    (ops : List (Operation η ε α)) (l : Timeline) (ws : Words) (hctx : ctx.token.Old l.issued)
    (hl : l.Settled l.issued) (hops : ∀ op ∈ ops, Heedless l.issued ctx op)
    (hmet : ∀ number op start, Made ops (p.run ctx ops l ws).journal number op ctx start →
      ((op ctx).play ctx start).OverBy ctx (start.now + timeout)) :
    ∃ timed, (p.toBuilder.set (.attemptTimeout timeout)).build = .ok timed ∧
      let run := p.run ctx ops l ws
      let run' := timed.run ctx ops l ws
      run'.status = run.status ∧ run'.line.now = run.line.now ∧
      Entry.stamps Event.invocation? run'.journal = Entry.stamps Event.invocation? run.journal ∧
      Entry.pick Event.sleep? run'.journal = Entry.pick Event.sleep? run.journal ∧
      run'.journal.map (Entry.told ctx) = run.journal.map (Entry.told ctx) := by
  refine ⟨p.timed timeout, p.build_timed hpos hday, ?_⟩
  intro run run'
  have hstep : InStep (fun e => some (e.told ctx)) (fun l l' => l'.now = l.now)
      (Loop.Beside l.issued ctx) p (p.timed timeout) ctx ops l l ws ws := by
    have hle := Nat.le_refl l.issued
    refine ⟨⟨Timeline.beside_refl hl hle ctx.token, hle, rfl, rfl, rfl⟩, ?_, ?_, ?_, ?_, ?_⟩
    · exact fun s s' h => h.attempts
    · exact fun s s' h => h.line.now
    · intro s s' h log
      simp only [Entry.told, Entry.moment, h.line.now]
    · exact fun rest s s' journal journal' _ _ h => h.line.err hctx
    · intro op rest s s' journal journal' hreach _ h hlive
      have hplain : p.attemptContext ctx s.line = (ctx, s.line) := by
        simp only [attemptContext, hp]
      have hmade : Made ops run.journal (s.attempts + 1) op ctx s.line :=
        made_iff.mpr ⟨rest, s, journal, hreach, hlive, rfl, hplain⟩
      have hover : (p.watched ctx op s.line).OverBy ctx (s.line.now + timeout) := by
        simp only [watched, hplain]
        exact hmet _ op s.line hmade
      obtain ⟨before, hsplit, -⟩ := hreach.tried_eq
      have hop : op ∈ ops := hsplit ▸ by simp
      exact round_beside hpos hp hctx h (hops op hop) hlive hover
  have halike := hstep.run
  have htold : run'.journal.map (Entry.told ctx) = run.journal.map (Entry.told ctx) :=
    Entry.filterMap_told_iff.mp halike.told
  exact ⟨halike.status, halike.lines, Entry.stamps_of_told (Event.invocation_under ctx) htold,
    Entry.pick_of_told (Event.sleep_under ctx) htold, htold⟩

/-- The first attempt ends at the very tick at which it would be out of time; the second hangs and
is cut off by a cancellation of the caller's context, which comes sooner. -/
theorem timeout_met_changes_nothing_on_ties :
    let ops : List (Operation Empty Reason Nat) :=
      [fun _ => .sleep 300000000 (.finish (.error .deadlineExceeded)), fun _ => .hang]
    let ctx : Context := ⟨.root 0, some (Duration.ofSecs 60)⟩
    let l : Timeline := { planned := [⟨700000000, .root 0⟩], issued := 1 }
    let plain := ofReasons 3 .allErrors none
    let timed := ofReasons 3 .allErrors (some 300000000)
    let run := plain.run ctx ops l []
    let run' := timed.run ctx ops l []
    (plain.toBuilder.set (.attemptTimeout 300000000)).build = .ok timed ∧
      run'.status = .returned (.failure .cancelled 2 .cancelled) ∧ run'.line.now = 700000000 ∧
      Entry.stamps Event.invocation? run'.journal = [0, 500000000] ∧
      run'.journal.map (Entry.told ctx) = run.journal.map (Entry.told ctx) := by
  intro ops ctx l plain timed run run'
  have hbegun : (run.journal.filterMap fun e => e.event.invocation?.map (·, e.line)) =
      [(1, l), (2, { l with now := 500000000 })] := by decide +kernel
  have hover : ∀ (q : Played Empty Reason Nat) (limit : Nat), resultOf q.ending ≠ none →
      q.line.now ≤ limit → q.OverBy ctx limit := by
    intro q limit hends hnow
    refine Or.inr ⟨fun hstuck => ?_, hnow⟩
    rw [hstuck] at hends
    exact hends rfl
  have hmet : ∀ number op start, Made ops run.journal number op ctx start →
      ((op ctx).play ctx start).OverBy ctx (start.now + 300000000) := by
    rintro number op start ⟨⟨i, rfl, hop⟩, err, hmem⟩
    have hin : (i + 1, start) ∈ [(1, l), (2, { l with now := 500000000 })] :=
      hbegun ▸ List.mem_filterMap.mpr ⟨_, hmem, rfl⟩
    rcases List.mem_cons.mp hin with heq | hin
    · cases heq
      cases hop
      apply hover
      · decide +kernel
      · decide +kernel
    · cases List.mem_singleton.mp hin
      cases hop
      apply hover
      · decide +kernel
      · decide +kernel
  have hroot : (Token.root 0).Old 1 := by
    intro k hk
    rw [List.mem_singleton.mp hk]
    exact Nat.zero_lt_one
  have hl : l.Settled 1 := by
    refine ⟨nofun, fun plan hplan => ?_⟩
    rw [List.mem_singleton.mp hplan]
    exact hroot
  have hops : ∀ op ∈ ops, Heedless 1 ctx op := by
    intro op hop
    rcases List.mem_cons.mp hop with rfl | hop
    · exact ⟨fun _ => rfl, trivial⟩
    · rw [List.mem_singleton.mp hop]
      exact ⟨fun _ => rfl, trivial⟩
  obtain ⟨built, hbuilt, -, hnow, hbegins, -, htold⟩ := timeout_met_changes_nothing plain rfl
    (by decide) (by decide) ctx ops l [] hroot hl hops hmet
  have htimed : (plain.toBuilder.set (.attemptTimeout 300000000)).build = .ok timed :=
    build_timed plain (by decide) (by decide)
  obtain rfl : built = timed := Except.ok.inj (hbuilt.symm.trans htimed)
  have hend : (plain.run ctx ops l []).line.now = 700000000 := by decide +kernel
  have hstarts : Entry.stamps Event.invocation? (plain.run ctx ops l []).journal =
      [0, 500000000] := by decide +kernel
  have hrun : run' = timed.run ctx ops l [] := rfl
  rw [hrun]
  refine ⟨htimed, ?_, hnow.trans hend, hbegins.trans hstarts, htold⟩
  decide +kernel

end Policy

end Retry
