import Retry.Proofs.Course
import Retry.Proofs.Delay
import Retry.Proofs.Laps

namespace Retry

namespace Entry

variable {η ε α β : Type}

/-- When those entries of a journal were written that have something to say. -/
def stamps (f : Event η ε α → Option β) (journal : List (Entry η ε α)) : List Nat :=
  journal.filterMap fun e => (f e.event).map fun _ => e.moment

@[simp] theorem stamps_append (f : Event η ε α → Option β) (j k : List (Entry η ε α)) :
    stamps f (j ++ k) = stamps f j ++ stamps f k := List.filterMap_append

theorem stamps_singleton (f : Event η ε α → Option β) (e : Entry η ε α) :
    stamps f [e] = (f e.event).toList.map fun _ => e.moment := by
  cases h : f e.event <;> simp [stamps, h]

theorem length_stamps (f : Event η ε α → Option β) (journal : List (Entry η ε α)) :
    (stamps f journal).length = (pick f journal).length := by
  induction journal with
  | nil => rfl
  | cons e journal ih =>
    simp only [stamps, pick, List.filterMap_cons] at ih ⊢
    cases f e.event with
    | none => exact ih
    | some what => exact congrArg (· + 1) ih

theorem stamps_eq_nil {f : Event η ε α → Option β} {journal : List (Entry η ε α)}
    (h : pick f journal = []) : stamps f journal = [] := by
  rw [← List.length_eq_zero_iff, length_stamps, h, List.length_nil]

end Entry

namespace Policy

/-- Each start but the first comes after the end before it, by no less than the delay between. -/
def Spaced (starts finishes delays : List Nat) : Prop :=
  ∀ (i finish delay start : Nat), finishes[i]? = some finish → delays[i]? = some delay →
    starts[i + 1]? = some start → finish + delay ≤ start

/-- The next start after one more end and delay. -/
theorem Spaced.concat {starts finishes delays : List Nat} {finish delay next : Nat}
    (h : Spaced starts finishes delays) (hfinishes : finishes.length + 1 = starts.length)
    (hdelays : delays.length = finishes.length) (hnext : finish + delay ≤ next) :
    Spaced (starts ++ [next]) (finishes ++ [finish]) (delays ++ [delay]) := by
  intro i f d start hf hd hstart
  rcases Nat.lt_trichotomy i finishes.length with hlt | rfl | hgt
  · rw [List.getElem?_append_left hlt] at hf
    rw [List.getElem?_append_left (hdelays ▸ hlt)] at hd
    rw [List.getElem?_append_left (by omega)] at hstart
    exact h i f d start hf hd hstart
  · rw [List.getElem?_concat_length] at hf
    rw [← hdelays, List.getElem?_concat_length] at hd
    rw [hfinishes, List.getElem?_concat_length] at hstart
    cases hf
    cases hd
    cases hstart
    exact hnext
  · have hnone : (finishes ++ [finish])[i]? = none :=
      List.getElem?_eq_none (by rw [List.length_append, List.length_singleton]; omega)
    rw [hnone] at hf
    cases hf

/-- What comes after as many ends and delays as there are starts to follow them is not spaced. -/
theorem Spaced.of_prefix {starts starts' finishes delays : List Nat}
    (h : Spaced starts finishes delays) (hstarts : starts' <+: starts)
    (hfinishes : starts'.length ≤ finishes.length + 1) (hdelays : delays.length = finishes.length)
    (finishes' delays' : List Nat) :
    Spaced starts' (finishes ++ finishes') (delays ++ delays') := by
  obtain ⟨later, rfl⟩ := hstarts
  intro i f d start hf hd hstart
  obtain ⟨hlt, -⟩ := List.getElem?_eq_some_iff.mp hstart
  have hi : i < finishes.length := by omega
  rw [List.getElem?_append_left hi] at hf
  rw [List.getElem?_append_left (hdelays ▸ hi)] at hd
  refine h i f d start hf hd ?_
  rw [List.getElem?_append_left hlt, hstart]

variable {η ε α : Type} [OfReason ε] {p : Policy ε} {ctx : Context} {op : Operation η ε α}
  {ops rest : List (Operation η ε α)} {l : Timeline} {ws : Words} {s : Loop}
  {journal : List (Entry η ε α)}

theorem stamps_invocation_tried (p : Policy ε) (ctx : Context) (op : Operation η ε α) (s : Loop) :
    Entry.stamps Event.invocation? (p.tried ctx op s).journal = [s.line.now] := by
  have hpick := p.pick_invocation_tried ctx op s
  rw [tried, journal_attempt, ← List.singleton_append] at hpick ⊢
  rw [Entry.pick_append, Entry.pick_singleton] at hpick
  rw [Entry.stamps_append, Entry.stamps_singleton,
    Entry.stamps_eq_nil (List.append_right_eq_self.mp hpick)]
  exact congrArg ([·]) (p.now_attemptContext ctx s.line)

theorem stamps_result_tried {r : Except ε α} (hr : (p.tried ctx op s).result = some r) :
    Entry.stamps Event.result? (p.tried ctx op s).journal = [(p.tried ctx op s).line.now] := by
  obtain ⟨before, hbefore⟩ := journal_attempt_ended hr
  have hpick := p.pick_result_tried ctx op s
  rw [tried, hbefore, Entry.pick_append, ← tried, hr] at hpick
  have hnone : Entry.pick Event.result? before = [] := List.append_left_eq_self.mp hpick
  rw [now_tried, tried, hbefore, Entry.stamps_append, Entry.stamps_eq_nil hnone,
    Entry.stamps_singleton]
  rfl

/-- With a timer, what a run has behind it is spaced, and so will the next attempt be. -/
theorem Reaches.spaced (htimer : p.sleeper = .timer) (h : p.Reaches ctx ops l ws rest s journal) :
    (Entry.stamps Event.invocation? journal).length = s.attempts ∧
      (Entry.stamps Event.result? journal).length = s.attempts ∧
      (Entry.pick Event.sleep? journal).length = s.attempts ∧
      Spaced (Entry.stamps Event.invocation? journal ++ [s.line.now])
        (Entry.stamps Event.result? journal) (Entry.pick Event.sleep? journal) := by
  induction h with
  | start => exact ⟨rfl, rfl, rfl, nofun⟩
  | @again op rest s s' journal more h hlive hround ih =>
    obtain ⟨hstarts, hfinishes, hdelays, hspaced⟩ := ih
    cases turn_of_round hround with
    | @again e events b delay _ _ hr hafter hd hb =>
      have hdecided := decided_of_decision hd
      obtain ⟨rfl, -⟩ := backOff_eq_none hb
      obtain ⟨hbeat, hsleep, -, hdelay, -⟩ := hdecided.sleep
      have hinvocation : Entry.pick Event.invocation?
          (Entry.allAt (p.tried ctx op s).line events) = [] := by
        rw [Entry.pick_allAt]
        exact List.filterMap_eq_nil_iff.mpr fun x hx => (hdecided.no_attempt x hx).1
      have hresult : Entry.pick Event.result?
          (Entry.allAt (p.tried ctx op s).line events) = [] := by
        rw [Entry.pick_allAt]
        exact List.filterMap_eq_nil_iff.mpr fun x hx => (hdecided.no_attempt x hx).2
      have hwake : (p.tried ctx op s).line.now + delay ≤
          ((p.tried ctx op s).line.advanceTo
            (p.sleeper.wake (p.tried ctx op s).line.now delay)).now := by
        have hlength : delay ≤ Sleeper.farAway :=
          Nat.le_trans (hdelay ▸ p.delayFor_le_day _ _ _) Duration.day_le_farAway
        rw [htimer]
        exact Nat.le_trans (Sleeper.le_wake_timer hlength _) (Timeline.le_advanceTo_now _ _)
      simp only [Entry.stamps_append, Entry.pick_append, stamps_invocation_tried,
        stamps_result_tried hr, pick_sleep_tried, Entry.stamps_eq_nil hinvocation,
        Entry.stamps_eq_nil hresult, Entry.pick_allAt, hsleep, List.append_nil, List.nil_append,
        List.length_append, List.length_singleton, hstarts, hfinishes, hdelays, true_and]
      exact hspaced.concat (by simp [hstarts, hfinishes]) (by simp [hdelays, hfinishes]) hwake

theorem spaced_run (htimer : p.sleeper = .timer) (ctx : Context) (ops : List (Operation η ε α))
    (l : Timeline) (ws : Words) :
    Spaced (Entry.stamps Event.invocation? (p.run ctx ops l ws).journal)
      (Entry.stamps Event.result? (p.run ctx ops l ws).journal)
      (Entry.pick Event.sleep? (p.run ctx ops l ws).journal) := by
  obtain ⟨rest, s, journal, report, hreach, hlast, hrun⟩ := p.exists_last ctx ops l ws
  obtain ⟨hstarts, hfinishes, hdelays, hspaced⟩ := hreach.spaced htimer
  -- From a reached state at most one more attempt is begun, and it is begun there.
  have hnext : Entry.stamps Event.invocation? report.journal <+: [s.line.now] := by
    cases hlast with
    | abandoned | starved => exact List.nil_prefix
    | stopped hlive hround =>
      obtain ⟨tail, hwritten, htail⟩ := (turn_of_round hround).written_eq
      have hsilent := Entry.stamps_eq_nil (Entry.pick_eq_nil fun e he => (htail e he).1)
      simp only [Round.written] at hwritten
      refine ⟨[], ?_⟩
      rw [hwritten, Entry.stamps_append, stamps_invocation_tried, hsilent, List.append_nil,
        List.append_nil]
  have hlength := hnext.length_le
  simp only [hrun, Report.after, Entry.stamps_append, Entry.pick_append]
  refine hspaced.of_prefix ((List.prefix_append_right_inj _).mpr hnext) ?_ ?_ _ _
  · rw [List.length_append, hstarts, hfinishes]
    exact Nat.add_le_add_left hlength _
  · rw [hdelays, hfinishes]

/-- Sleeps are requested exactly between attempts. The delays, and what the hint is asked, are those
of the first failures in their order; the attempts and the sleeps take turns, each attempt but the
last followed by its sleep. A run that stops of itself has slept once less often than it has tried;
one that is abandoned as well if the context was done when an attempt ended, and as often as it has
tried if not. With a timer, an attempt begins no sooner than its delay after the one before. -/
theorem sleeps_between_attempts (p : Policy ε) (ctx : Context) (ops : List (Operation η ε α))
    (l : Timeline) (ws : Words) :
    let run := p.run ctx ops l ws
    let sleeps := Entry.pick Event.sleep? run.journal
    (∃ errors last tail, Entry.pick Event.result? run.journal = errors.map .error ++ last ∧
      sleeps = p.delays 1 ws errors ∧
      Entry.pick Event.hint? run.journal = p.hintsAsked errors ∧
      Entry.pick Event.beat? run.journal = Beat.laps sleeps.length ++ tail ∧
      (tail = [] ∨ tail = [.begins (sleeps.length + 1)] ∨
        tail = [.begins (sleeps.length + 1), .ends])) ∧
    (∀ o, run.status = .returned o → o.termination? ≠ some .cancelled →
      sleeps.length + 1 = o.attempts) ∧
    (∀ e number, run.status = .returned (.failure e number .cancelled) →
      (¬ EndedLive ctx run.journal → sleeps.length + 1 = number) ∧
      (EndedLive ctx run.journal → sleeps.length = number)) ∧
    (p.sleeper = .timer → Spaced (Entry.stamps Event.invocation? run.journal)
      (Entry.stamps Event.result? run.journal) sleeps) := by
  intro run sleeps
  obtain ⟨errors, last, tail, hslept, hcloses⟩ := p.exists_closes ctx ops l ws
  have hlength : sleeps.length = errors.length := by
    rw [show sleeps = _ from hslept.sleeps, length_delays]
  rw [← hlength] at hcloses
  refine ⟨⟨errors, last, tail, hslept.results, hslept.sleeps, hslept.hints, ?_, ?_⟩, ?_, ?_,
    fun htimer => spaced_run htimer ctx ops l ws⟩
  · rw [hlength]
    exact hslept.beats
  · generalize (p.run ctx ops l ws).status = status at hcloses
    cases hcloses with
    | between | starved => exact Or.inl rfl
    | stuck => exact Or.inr (Or.inl rfl)
    | stopped | lost => exact Or.inr (Or.inr rfl)
  · intro o hstatus ho
    rw [show (p.run ctx ops l ws).status = _ from hstatus] at hcloses
    cases hcloses with
    | stopped hattempts => exact hattempts.symm
    | lost | between => exact absurd rfl ho
  · intro e number hstatus
    rw [show (p.run ctx ops l ws).status = _ from hstatus] at hcloses
    cases hcloses with
    | stopped _ ht => exact absurd rfl ht
    | lost x hx hresult hdone =>
      refine ⟨fun _ => rfl, fun hlive => ?_⟩
      simp [Context.isDone, hlive x hx hresult] at hdone
    | between hlive => exact ⟨fun hnot => absurd hlive hnot, fun _ => rfl⟩

/-- Two failures and a value with growing delays; a run abandoned in the second of its sleeps; and
one abandoned with its first attempt. -/
theorem sleeps_between_three_attempts :
    let growing : Policy Reason :=
      { ofReasons 0 .allErrors none with
        backoff := .linear (Duration.ofMillis 100) none
        delayHint := some fun _ _ => none }
    let fails : Operation Empty Reason Nat := fun _ => .sleep 1000000 (.finish (.error .cancelled))
    let ops : List (Operation Empty Reason Nat) := [fails, fails, fun _ => .finish (.ok 7)]
    let hangs : Operation Empty Reason Nat := fun _ => .hang
    let within := fun deadline => (⟨.root 0, some (Duration.ofMillis deadline)⟩ : Context)
    let run := growing.run (within 1000) ops {} []
    let slept := growing.run (within 200) ops {} []
    let hung := growing.run (within 200) [hangs] {} []
    (run.status = .returned (.success 7 3) ∧
        Entry.pick Event.sleep? run.journal = [Duration.ofMillis 100, Duration.ofMillis 200] ∧
        Entry.pick Event.hint? run.journal = [(.cancelled, 1), (.cancelled, 2)] ∧
        Spaced (Entry.stamps Event.invocation? run.journal)
          (Entry.stamps Event.result? run.journal) (Entry.pick Event.sleep? run.journal)) ∧
      (slept.status = .returned (.failure .deadlineExceeded 2 .cancelled) ∧
        (Entry.pick Event.sleep? slept.journal).length = 2) ∧
      (hung.status = .returned (.failure .deadlineExceeded 1 .cancelled) ∧
        Entry.pick Event.sleep? hung.journal = []) := by
  intro growing fails ops hangs within run slept hung
  have hrun : run.status = .returned (.success 7 3) := by decide +kernel
  have hslept : slept.status = .returned (.failure .deadlineExceeded 2 .cancelled) := by
    decide +kernel
  have hhung : hung.status = .returned (.failure .deadlineExceeded 1 .cancelled) := by
    decide +kernel
  have hlive : EndedLive (within 200) slept.journal := by
    unfold EndedLive
    decide +kernel
  have hlost : ¬ EndedLive (within 200) hung.journal := by
    unfold EndedLive
    decide +kernel
  obtain ⟨-, -, -, hspaced⟩ := sleeps_between_attempts growing (within 1000) ops {} []
  obtain ⟨-, -, hcancelled, -⟩ := sleeps_between_attempts growing (within 200) ops {} []
  obtain ⟨-, -, hcut, -⟩ := sleeps_between_attempts growing (within 200) [hangs] {} []
  refine ⟨⟨hrun, by decide +kernel, by decide +kernel, hspaced rfl⟩,
    ⟨hslept, (hcancelled _ _ hslept).2 hlive⟩, hhung, ?_⟩
  exact List.length_eq_zero_iff.mp (Nat.succ.inj ((hcut _ _ hhung).1 hlost))

end Policy

end Retry
