import Retry.Proofs.Isolation
import Retry.Proofs.Lockstep
import Retry.Proofs.Laps
import Retry.Proofs.Stopping

namespace Retry

namespace Event

variable {η ε α : Type}

/-- The event without the length of a delay; what the hint was asked, and the notes of the work,
are left out. -/
def undelayed? : Event η ε α → Option (Event η ε α)
  | noted _ | hinted .. => none
  | slept _ => some (slept 0)
  | logged (.retrying attempt verdict _) => some (logged (.retrying attempt verdict 0))
  | e => some e

theorem result_of_undelayed (e : Event η ε α) : e.undelayed?.bind result? = e.result? := by
  cases e with
  | logged log => cases log <;> rfl
  | invoked | noted | ended | asked | judged | hinted | slept => rfl

theorem sleep_of_undelayed (e : Event η ε α) :
    e.undelayed?.bind sleep? = e.sleep?.map fun _ => 0 := by
  cases e with
  | logged log => cases log <;> rfl
  | invoked | noted | ended | asked | judged | hinted | slept => rfl

end Event

namespace Entry

variable {η ε α β : Type}

/-- Journals that are the same without the delays tell the same of what is no delay. -/
theorem pick_of_undelayed {f : Event η ε α → Option β} {journal journal' : List (Entry η ε α)}
    (h : pick Event.undelayed? journal' = pick Event.undelayed? journal) :
    pick (fun e => e.undelayed?.bind f) journal' = pick (fun e => e.undelayed?.bind f) journal := by
  have hpick : ∀ j : List (Entry η ε α),
      pick (fun e => e.undelayed?.bind f) j = (pick Event.undelayed? j).filterMap f := by
    intro j
    simp only [pick, List.filterMap_filterMap]
  rw [hpick, hpick, h]

theorem length_sleeps_of_undelayed {journal journal' : List (Entry η ε α)}
    (h : pick Event.undelayed? journal' = pick Event.undelayed? journal) :
    (pick Event.sleep? journal').length = (pick Event.sleep? journal).length := by
  have hmap : ∀ j : List (Entry η ε α), (pick Event.sleep? j).map (fun _ => 0) =
      pick (fun e => e.undelayed?.bind Event.sleep?) j := by
    intro j
    simp only [pick, List.map_filterMap, Event.sleep_of_undelayed]
  have hlength := congrArg List.length (pick_of_undelayed (f := Event.sleep?) h)
  rw [← hmap, ← hmap, List.length_map, List.length_map] at hlength
  exact hlength

end Entry

namespace Policy

variable {η ε α : Type}

/-- Two policies that judge failures alike, whatever the time is. -/
structure JudgesAlike (p p' : Policy ε) : Prop where
  mode : p'.mode = p.mode
  maxAttempts : p'.maxAttempts = p.maxAttempts
  asks : p'.earlyReturn.isSome = p.earlyReturn.isSome
  stops : ∀ now view e, p'.stopsEarly { view with now } e = p.stopsEarly view e
  classifier : ∀ now view e, p'.classifier { view with now } e = p.classifier view e

/-- Decisions that differ in the delay at most, and in the random words that are left. -/
inductive Decision.Alike : Decision → Decision → Prop where
  | stop (t : Termination) : Alike (.stop t) (.stop t)
  | retry (b : Budget) (delay delay' : Nat) (ws ws' : Words) :
      Alike (.retry b delay ws) (.retry b delay' ws')

theorem passed_alike {p p' : Policy ε} (h : p.JudgesAlike p') (e : ε) :
    (p'.passed e : List (Event η ε α)) = p.passed e := by
  have hasks := h.asks
  unfold passed
  cases hp : p.earlyReturn <;> cases hp' : p'.earlyReturn <;> simp [hp, hp'] at hasks ⊢

theorem hintAsked_undelayed (p : Policy ε) (number : Nat) (e : ε) :
    (p.hintAsked number e : List (Event η ε α)).filterMap Event.undelayed? = [] := by
  unfold hintAsked
  cases p.delayHint <;> rfl

/-- Policies that judge alike make the same of a failure, at whatever time each sees it. -/
theorem Decided.alike {p p' : Policy ε} {view : Context.View} {now number : Nat} {e : ε}
    {b : Budget} {ws ws' : Words} {events events' : List (Event η ε α)} {d d' : Decision}
    (h : p.Decided view number e b ws events d)
    (h' : p'.Decided { view with now } number e b ws' events' d') (hp : p.JudgesAlike p') :
    events'.filterMap Event.undelayed? = events.filterMap Event.undelayed? ∧ d.Alike d' := by
  have hstops := hp.stops now view e
  have hclassifier := hp.classifier now view e
  cases h with
  | early hstop =>
    cases h' with
    | early => exact ⟨rfl, .stop _⟩
    | spent hgo | retry hgo => simp [hstops, hstop] at hgo
  | spent hgo hv hb =>
    cases h' with
    | early hstop => simp [← hstops, hstop] at hgo
    | spent hgo' hv' hb' =>
      rw [hclassifier, hv] at hv'
      subst hv'
      rw [hp.maxAttempts, passed_alike hp]
      exact ⟨rfl, .stop _⟩
    | retry hgo' hv' hb' =>
      rw [hclassifier, hv] at hv'
      subst hv'
      rw [hp.mode, hp.maxAttempts, hb] at hb'
      cases hb'
  | retry hgo hv hb hdelay =>
    cases h' with
    | early hstop => simp [← hstops, hstop] at hgo
    | spent hgo' hv' hb' =>
      rw [hclassifier, hv] at hv'
      subst hv'
      rw [hp.mode, hp.maxAttempts, hb] at hb'
      cases hb'
    | retry hgo' hv' hb' =>
      rw [hclassifier, hv] at hv'
      subst hv'
      rw [hp.mode, hp.maxAttempts, hb] at hb'
      cases hb'
      refine ⟨?_, .retry ..⟩
      rw [passed_alike hp]
      simp only [List.filterMap_append, List.filterMap_cons, Event.undelayed?, hintAsked_undelayed]

variable [OfReason ε] {p p' : Policy ε} {ctx : Context} {op : Operation η ε α}
  {ops rest : List (Operation η ε α)} {l l' : Timeline} {ws ws' : Words} {s s' : Loop}
  {journal : List (Entry η ε α)}

/-- What an operation comes to under a context that stays live, does not depend on when it is
tried. -/
def Timeless (ctx : Context) (op : Operation η ε α) : Prop :=
  ∀ l l', ctx.err ((op ctx).play ctx l).line = none → ctx.err ((op ctx).play ctx l').line = none →
    resultOf ((op ctx).play ctx l').ending = resultOf ((op ctx).play ctx l).ending

theorem Gives.timeless {r : Except ε α} (h : Gives ctx op r) : Timeless ctx op := by
  have hending : ∀ l, ctx.err ((op ctx).play ctx l).line = none →
      ((op ctx).play ctx l).ending = .finished r := by
    intro l hafter
    have hbefore := (Task.plays_play ctx (op ctx) l).onward.before
    exact h l (Context.live_of_before hbefore hafter) hafter
  intro l l' hafter hafter'
  rw [hending l hafter, hending l' hafter']

theorem Timeless.result_tried (h : Timeless ctx op) (htimeout : p.attemptTimeout = none)
    (htimeout' : p'.attemptTimeout = none) (hafter : ctx.err (p.tried ctx op s).line = none)
    (hafter' : ctx.err (p'.tried ctx op s').line = none) :
    (p'.tried ctx op s').result = (p.tried ctx op s).result := by
  simp only [tried, err_attempt, watched, attemptContext, htimeout, htimeout'] at hafter hafter'
  simp only [tried, result_attempt, watched, attemptContext, htimeout, htimeout']
  exact h _ _ hafter hafter'

theorem undelayed_tried (htimeout : p.attemptTimeout = none) :
    Entry.pick Event.undelayed? (p.tried ctx op s).journal =
      .invoked (s.attempts + 1) ctx (ctx.err s.line) ::
        (p.tried ctx op s).result.toList.map .ended := by
  rw [tried, pick_attempt Event.undelayed? fun _ => rfl]
  simp only [attemptContext, htimeout, Event.undelayed?, Option.toList_some, List.singleton_append]
  rw [← List.filterMap_eq_map]
  rfl

/-- A run that ends with its context live, has it live whenever it stands before an attempt. -/
theorem Reaches.live (h : p.Reaches ctx ops l ws rest s journal)
    (hend : ctx.err (p.run ctx ops l ws).line = none) : ctx.err s.line = none := by
  rw [h.run_eq] at hend
  exact Context.live_of_before (p.course_runFrom ctx rest s).before hend

theorem Reaches.live_tried (h : p.Reaches ctx ops l ws (op :: rest) s journal)
    (hend : ctx.err (p.run ctx ops l ws).line = none) : ctx.err (p.tried ctx op s).line = none := by
  obtain ⟨after, -, hcourse⟩ := h.exists_after (h.live hend)
  exact Context.live_of_before hcourse.before hend

/-- A run that ends with its context live, waits out every delay. -/
theorem Reaches.waits_out {e : ε} {events : List (Event η ε α)} {b : Budget} {delay : Nat}
    {words : Words} (h : p.Reaches ctx ops l ws (op :: rest) s journal)
    (hend : ctx.err (p.run ctx ops l ws).line = none)
    (hr : (p.tried ctx op s).result = some (.error e))
    (hd : p.decision (ctx.view (p.tried ctx op s).line) (s.attempts + 1) e s.budget s.words =
      (events, .retry b delay words)) :
    ∃ line, p.backOff ctx delay (p.tried ctx op s).line = (line, none) := by
  cases hb : p.backOff ctx delay (p.tried ctx op s).line with
  | mk line cut =>
    cases cut with
    | none => exact ⟨line, rfl⟩
    | some reason =>
      have hround := (Turn.interrupted hr (h.live_tried hend) hd hb).round_eq
      rw [h.run_eq_of_last (.stopped (h.live hend) hround)] at hend
      have hdone := Context.err_of_signal (backOff_eq_some hb).1
      exact absurd (hdone.symm.trans hend) nofun

/-- A round of one run and of another, from states that agree on what has been counted. -/
theorem round_alike (hjudge : p.JudgesAlike p') (htimeout : p.attemptTimeout = none)
    (htimeout' : p'.attemptTimeout = none) (hop : Timeless ctx op) {journal' : List (Entry η ε α)}
    (h : p.Reaches ctx ops l ws (op :: rest) s journal)
    (h' : p'.Reaches ctx ops l' ws' (op :: rest) s' journal')
    (hend : ctx.err (p.run ctx ops l ws).line = none)
    (hend' : ctx.err (p'.run ctx ops l' ws').line = none)
    (hattempts : s'.attempts = s.attempts) (hbudget : s'.budget = s.budget) :
    (p.round ctx op s).Alike (fun e => e.event.undelayed?) (fun _ _ => True)
      (fun s s' => s'.attempts = s.attempts ∧ s'.budget = s.budget) (p'.round ctx op s') := by
  have hafter := h.live_tried hend
  have hafter' := h'.live_tried hend'
  have hresult := hop.result_tried htimeout htimeout' hafter hafter'
  have htold : Entry.pick Event.undelayed? (p'.tried ctx op s').journal =
      Entry.pick Event.undelayed? (p.tried ctx op s).journal := by
    rw [undelayed_tried htimeout, undelayed_tried htimeout', hresult, hattempts, h.live hend,
      h'.live hend']
  cases hr : (p.tried ctx op s).result with
  | none =>
    rw [hr] at hresult
    rw [(Turn.stuck hr).round_eq, (Turn.stuck hresult).round_eq]
    exact .stop htold trivial
  | some result =>
    rw [hr] at hresult
    cases result with
    | ok v =>
      rw [(Turn.value hr).round_eq, (Turn.value hresult).round_eq, hattempts]
      exact .stop htold trivial
    | error e =>
      cases hd : p.decision (η := η) (α := α) (ctx.view (p.tried ctx op s).line) (s.attempts + 1) e
          s.budget s.words with
      | mk events d =>
      cases hd' : p'.decision (η := η) (α := α) (ctx.view (p'.tried ctx op s').line)
          (s'.attempts + 1) e s'.budget s'.words with
      | mk events' d' =>
        have hview : ctx.view (p'.tried ctx op s').line =
            { ctx.view (p.tried ctx op s).line with now := (p'.tried ctx op s').line.now } := by
          simp only [Context.view, hafter, hafter']
        have hdecided' := decided_of_decision hd'
        rw [hview, hattempts, hbudget] at hdecided'
        obtain ⟨hevents, halike⟩ := (decided_of_decision hd).alike hdecided' hjudge
        have hboth : Entry.pick Event.undelayed?
              ((p'.tried ctx op s').journal ++ Entry.allAt (p'.tried ctx op s').line events') =
            Entry.pick Event.undelayed?
              ((p.tried ctx op s).journal ++ Entry.allAt (p.tried ctx op s).line events) := by
          rw [Entry.pick_append, Entry.pick_append, Entry.pick_allAt, Entry.pick_allAt, htold,
            hevents]
        cases halike with
        | stop t =>
          rw [(Turn.stopped hr hafter hd).round_eq, (Turn.stopped hresult hafter' hd').round_eq,
            hattempts]
          exact .stop hboth trivial
        | retry b delay delay' words words' =>
          obtain ⟨line, hb⟩ := h.waits_out hend hr hd
          obtain ⟨line', hb'⟩ := h'.waits_out hend' hresult hd'
          rw [(Turn.again hr hafter hd hb).round_eq, (Turn.again hresult hafter' hd' hb').round_eq]
          exact .again hboth ⟨congrArg (· + 1) hattempts, rfl⟩

/-- Delays decide nothing. Under a context that stays live, and for an operation that comes to the
same whenever it is tried, policies without an attempt timeout that judge failures alike end alike,
whatever their backoffs, jitters, random words, delay hints and sleepers: with the same value or
error, after the same attempts, with the same termination and as many sleeps requested. -/
theorem delays_decide_nothing (hjudge : p.JudgesAlike p') (htimeout : p.attemptTimeout = none)
    (htimeout' : p'.attemptTimeout = none) (ctx : Context) (ops : List (Operation η ε α))
    (hops : ∀ op ∈ ops, Timeless ctx op) (l l' : Timeline) (ws ws' : Words)
    (hend : ctx.err (p.run ctx ops l ws).line = none)
    (hend' : ctx.err (p'.run ctx ops l' ws').line = none) :
    let run := p.run ctx ops l ws
    let run' := p'.run ctx ops l' ws'
    run'.status = run.status ∧
    (Entry.pick Event.sleep? run'.journal).length =
      (Entry.pick Event.sleep? run.journal).length ∧
    Entry.pick Event.result? run'.journal = Entry.pick Event.result? run.journal ∧
    Entry.pick Event.undelayed? run'.journal = Entry.pick Event.undelayed? run.journal := by
  intro run run'
  have hstep : InStep (fun e => e.event.undelayed?) (fun _ _ => True)
      (fun s s' => s'.attempts = s.attempts ∧ s'.budget = s.budget) p p' ctx ops l l' ws ws' := by
    refine ⟨⟨rfl, rfl⟩, fun _ _ h => h.1, fun _ _ _ => trivial, fun _ _ _ _ => rfl, ?_, ?_⟩
    · intro rest s s' journal journal' hreach hreach' _
      rw [hreach.live hend, hreach'.live hend']
    · intro op rest s s' journal journal' hreach hreach' hloops _
      obtain ⟨before, hsplit, -⟩ := hreach.tried_eq
      have hop : Timeless ctx op := hops op (hsplit ▸ by simp)
      exact round_alike hjudge htimeout htimeout' hop hreach hreach' hend hend' hloops.1 hloops.2
  have halike := hstep.run
  have htold : Entry.pick Event.undelayed? run'.journal = Entry.pick Event.undelayed? run.journal :=
    halike.told
  refine ⟨halike.status, Entry.length_sleeps_of_undelayed htold, ?_, htold⟩
  have hresults := Entry.pick_of_undelayed (f := Event.result?) htold
  simpa only [Event.result_of_undelayed] using hresults

/-- One policy waits longer each time, by chance, the other not at all, and is told to; both come to
the value of the third attempt. -/
theorem delays_decide_nothing_of_two_paces :
    let rs : List (Except Reason Nat) :=
      [.error .deadlineExceeded, .error .deadlineExceeded, .ok 7]
    let ops : List (Operation Empty Reason Nat) := rs.map fun r _ => .sleep 1500000 (.finish r)
    let ctx : Context := { token := .root 0, deadline := some (Duration.ofSecs 60) }
    let slow : Policy Reason := { ofReasons 3 .allErrors none with
      backoff := .linear Duration.second none, jitter := .full }
    let hasty : Policy Reason := { ofReasons 3 .allErrors none with
      delayHint := some fun _ _ => some 1, sleeper := .instant }
    let run := slow.run ctx ops {} [5, 77]
    let run' := hasty.run ctx ops { now := 9 } []
    run'.status = .returned (.success 7 3) ∧ run'.status = run.status ∧
      Entry.pick Event.sleep? run.journal ≠ Entry.pick Event.sleep? run'.journal ∧
      (Entry.pick Event.sleep? run'.journal).length =
        (Entry.pick Event.sleep? run.journal).length := by
  intro rs ops ctx slow hasty run run'
  have hops : ∀ op ∈ ops, Timeless ctx op := by
    intro op hop
    obtain ⟨r, -, heq⟩ := List.mem_map.mp hop
    have hgives : Gives ctx op r := gives_of_alone fun l => heq ▸ ⟨_, rfl⟩
    exact hgives.timeless
  have hjudge : slow.JudgesAlike hasty := ⟨rfl, rfl, rfl, fun _ _ _ => rfl, fun _ _ _ => rfl⟩
  have hend : ctx.err run.line = none := by decide +kernel
  have hend' : ctx.err run'.line = none := by decide +kernel
  obtain ⟨hstatus, hsleeps, -⟩ :=
    delays_decide_nothing hjudge rfl rfl ctx ops hops {} { now := 9 } [5, 77] [] hend hend'
  exact ⟨by decide +kernel, hstatus, by decide +kernel, hsleeps⟩

end Policy

end Retry
