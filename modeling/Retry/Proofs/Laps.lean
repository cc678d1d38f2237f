import Retry.Proofs.Outcome

namespace Retry

/-- What a run does in turn: an attempt begins, it ends, a sleep is requested. -/
inductive Beat where
  | begins (number : Nat)
  | ends
  | sleeps
  deriving DecidableEq, Repr

namespace Beat

def lap (number : Nat) : List Beat := [.begins number, .ends, .sleeps]

/-- So many laps, numbered from one on. -/
def laps (n : Nat) : List Beat := (List.range' 1 n).flatMap lap

theorem laps_succ (n : Nat) : laps (n + 1) = laps n ++ lap (n + 1) := by
  simp only [laps, List.range'_1_concat, List.flatMap_append, List.flatMap_singleton,
    Nat.add_comm 1 n]

end Beat

namespace Event

variable {η ε α : Type}

def beat? : Event η ε α → Option Beat
  | invoked attempt _ _ => some (.begins attempt)
  | ended _ => some .ends
  | slept _ => some .sleeps
  | _ => none

def sleep? : Event η ε α → Option Nat
  | slept delay => some delay
  | _ => none

/-- An error that the delay hint was asked about, and the number of its attempt. -/
def hint? : Event η ε α → Option (ε × Nat)
  | hinted attempts error _ => some (error, attempts)
  | _ => none

/-- What is no beat neither begins nor ends an attempt, nor requests a sleep. -/
theorem of_beat?_eq_none {e : Event η ε α} (h : e.beat? = none) :
    e.result? = none ∧ e.sleep? = none := by
  cases e with
  | invoked | ended | slept => cases h
  | noted | asked | judged | hinted | logged => exact ⟨rfl, rfl⟩

end Event

namespace Policy

section Delays

variable {ε : Type}

/-- The delays after failures, the first of them that of attempt `number`: each with its own error
and number, and with the random words that those before it have left. -/
def delays (p : Policy ε) (number : Nat) (ws : Words) : List ε → List Nat
  | [] => []
  | e :: errors =>
    let (delay, used) := p.delayFor number e ws
    delay :: p.delays (number + 1) (ws.drop used) errors

/-- The random words that the delays after failures leave. -/
def wordsAfter (p : Policy ε) (number : Nat) (ws : Words) : List ε → Words
  | [] => ws
  | e :: errors => p.wordsAfter (number + 1) (ws.drop (p.delayFor number e ws).2) errors

variable (p : Policy ε)

@[simp] theorem length_delays (number : Nat) (ws : Words) (errors : List ε) :
    (p.delays number ws errors).length = errors.length := by
  induction errors generalizing number ws with
  | nil => rfl
  | cons e errors ih => simp only [delays, List.length_cons, ih]

theorem delays_concat (number : Nat) (ws : Words) (errors : List ε) (e : ε) :
    p.delays number ws (errors ++ [e]) = p.delays number ws errors ++
      [(p.delayFor (number + errors.length) e (p.wordsAfter number ws errors)).1] := by
  induction errors generalizing number ws with
  | nil => rfl
  | cons first errors ih =>
    simp only [delays, wordsAfter, List.cons_append, ih, List.length_cons, Nat.add_assoc,
      Nat.add_comm 1]

theorem wordsAfter_concat (number : Nat) (ws : Words) (errors : List ε) (e : ε) :
    p.wordsAfter number ws (errors ++ [e]) = (p.wordsAfter number ws errors).drop
      (p.delayFor (number + errors.length) e (p.wordsAfter number ws errors)).2 := by
  induction errors generalizing number ws with
  | nil => rfl
  | cons first errors ih =>
    simp only [wordsAfter, List.cons_append, ih, List.length_cons, Nat.add_assoc, Nat.add_comm 1]

/-- What the delay hint, if there is one, is asked about failures. -/
def hintsAsked (errors : List ε) : List (ε × Nat) :=
  if p.delayHint.isSome then errors.zipIdx 1 else []

theorem hintsAsked_concat (errors : List ε) (e : ε) :
    p.hintsAsked (errors ++ [e]) =
      p.hintsAsked errors ++ if p.delayHint.isSome then [(e, errors.length + 1)] else [] := by
  unfold hintsAsked
  split
  · rw [List.zipIdx_append, List.zipIdx_singleton, Nat.add_comm]
  · rfl

end Delays

variable {η ε α : Type} {p : Policy ε} {ctx : Context} {view : Context.View} {number : Nat} {e : ε}
  {b : Budget} {ws words : Words} {events : List (Event η ε α)}

/-- A run that is stopped requests no sleep. -/
theorem Decided.silent {t : Termination} (h : p.Decided view number e b ws events (.stop t)) :
    events.filterMap Event.beat? = [] ∧ events.filterMap Event.hint? = [] := by
  cases h with
  | early => exact ⟨rfl, rfl⟩
  | spent =>
    rw [passed]
    cases p.earlyReturn <;> exact ⟨rfl, rfl⟩

/-- A run that is to go on asks the hint once and requests one sleep. -/
theorem Decided.sleep {b' : Budget} {delay : Nat} {words : Words}
    (h : p.Decided view number e b ws events (.retry b' delay words)) :
    events.filterMap Event.beat? = [.sleeps] ∧ events.filterMap Event.sleep? = [delay] ∧
      events.filterMap Event.hint? = (if p.delayHint.isSome then [(e, number)] else []) ∧
      delay = (p.delayFor number e ws).1 ∧ words = ws.drop (p.delayFor number e ws).2 := by
  cases h with
  | retry hgo hv hb hdelay =>
    rw [passed, hintAsked, hdelay]
    cases p.earlyReturn <;> cases p.delayHint <;> exact ⟨rfl, rfl, rfl, rfl, rfl⟩

variable [OfReason ε] {op : Operation η ε α} {ops rest : List (Operation η ε α)} {l : Timeline}
  {s : Loop} {journal more : List (Entry η ε α)} {errors : List ε} {last : List (Except ε α)}
  {tail : List Beat}

@[simp] theorem pick_beat_tried (p : Policy ε) (ctx : Context) (op : Operation η ε α) (s : Loop) :
    Entry.pick Event.beat? (p.tried ctx op s).journal =
      .begins (s.attempts + 1) :: (p.tried ctx op s).result.toList.map fun _ => .ends := by
  rw [tried, pick_attempt Event.beat? (fun _ => rfl)]
  cases (p.attempt ctx (s.attempts + 1) op s.line).result <;> rfl

@[simp] theorem pick_sleep_tried (p : Policy ε) (ctx : Context) (op : Operation η ε α) (s : Loop) :
    Entry.pick Event.sleep? (p.tried ctx op s).journal = [] := by
  simp [tried, pick_attempt Event.sleep? (fun _ => rfl), Event.sleep?]

@[simp] theorem pick_hint_tried (p : Policy ε) (ctx : Context) (op : Operation η ε α) (s : Loop) :
    Entry.pick Event.hint? (p.tried ctx op s).journal = [] := by
  simp [tried, pick_attempt Event.hint? (fun _ => rfl), Event.hint?]

/-- A journal tells of a lap for each of `errors`, with `last` the result that came after them and
`tail` what was begun and not followed by a sleep. -/
structure Slept (p : Policy ε) (ws : Words) (errors : List ε) (last : List (Except ε α))
    (tail : List Beat) (journal : List (Entry η ε α)) : Prop where
  results : Entry.pick Event.result? journal = errors.map .error ++ last
  sleeps : Entry.pick Event.sleep? journal = p.delays 1 ws errors
  hints : Entry.pick Event.hint? journal = p.hintsAsked errors
  beats : Entry.pick Event.beat? journal = Beat.laps errors.length ++ tail

omit [OfReason ε] in
theorem Slept.silent (h : p.Slept ws errors last tail journal)
    (hbeat : Entry.pick Event.beat? more = []) (hhint : Entry.pick Event.hint? more = []) :
    p.Slept ws errors last tail (journal ++ more) := by
  have hnone : ∀ e ∈ more, e.event.result? = none ∧ e.event.sleep? = none := fun e he =>
    Event.of_beat?_eq_none (List.filterMap_eq_nil_iff.mp hbeat e he)
  constructor
  · rw [Entry.pick_append, h.results, Entry.pick_eq_nil fun e he => (hnone e he).1, List.append_nil]
  · rw [Entry.pick_append, h.sleeps, Entry.pick_eq_nil fun e he => (hnone e he).2, List.append_nil]
  · rw [Entry.pick_append, h.hints, hhint, List.append_nil]
  · rw [Entry.pick_append, h.beats, hbeat, List.append_nil]

theorem Slept.tried (h : p.Slept ws errors [] [] journal) (ctx : Context) (op : Operation η ε α)
    (s : Loop) :
    p.Slept ws errors (p.tried ctx op s).result.toList
      (.begins (s.attempts + 1) :: (p.tried ctx op s).result.toList.map fun _ => .ends)
      (journal ++ (p.tried ctx op s).journal) where
  results := by rw [Entry.pick_append, h.results, pick_result_tried, List.append_nil]
  sleeps := by rw [Entry.pick_append, h.sleeps, pick_sleep_tried, List.append_nil]
  hints := by rw [Entry.pick_append, h.hints, pick_hint_tried, List.append_nil]
  beats := by rw [Entry.pick_append, h.beats, pick_beat_tried, List.append_nil]

omit [OfReason ε] in
/-- The sleep after a failure makes a lap of it. -/
theorem Slept.slept {b' : Budget} {delay : Nat} {words' : Words}
    (h : p.Slept ws errors [.error e] [.begins (errors.length + 1), .ends] journal)
    (hwords : words = p.wordsAfter 1 ws errors)
    (hd : p.Decided view (errors.length + 1) e b words events (.retry b' delay words'))
    (line : Timeline) :
    p.Slept ws (errors ++ [e]) [] [] (journal ++ Entry.allAt line events) ∧
      words' = p.wordsAfter 1 ws (errors ++ [e]) := by
  obtain ⟨hbeat, hsleep, hhint, rfl, rfl⟩ := hd.sleep
  have hresult : events.filterMap Event.result? = [] :=
    List.filterMap_eq_nil_iff.mpr fun x hx => (hd.no_attempt x hx).2
  refine ⟨⟨?_, ?_, ?_, ?_⟩, ?_⟩
  · rw [Entry.pick_append, h.results, Entry.pick_allAt, hresult]
    simp
  · rw [Entry.pick_append, h.sleeps, Entry.pick_allAt, hsleep, delays_concat, hwords,
      Nat.add_comm 1]
  · rw [Entry.pick_append, h.hints, Entry.pick_allAt, hhint, hintsAsked_concat]
  · rw [Entry.pick_append, h.beats, Entry.pick_allAt, hbeat, List.length_append,
      List.length_singleton, Beat.laps_succ]
    simp [Beat.lap]
  · rw [wordsAfter_concat, hwords, Nat.add_comm 1]

/-- At a reached state a run has only whole laps behind it. -/
theorem Reaches.slept (h : p.Reaches ctx ops l ws rest s journal) :
    ∃ errors, p.Slept ws errors [] [] journal ∧ errors.length = s.attempts ∧
      s.words = p.wordsAfter 1 ws errors := by
  induction h with
  | start => exact ⟨[], ⟨rfl, rfl, by simp [hintsAsked], rfl⟩, rfl, rfl⟩
  | @again op rest s s' journal more h hlive hround ih =>
    obtain ⟨errors, hslept, hattempts, hwords⟩ := ih
    have htried := hslept.tried ctx op s
    cases turn_of_round hround with
    | @again e events b delay ws line hr hafter hd hb =>
      rw [hr, ← hattempts] at htried
      rw [← hattempts] at hd
      obtain ⟨hlap, hleft⟩ := htried.slept hwords (decided_of_decision hd) (p.tried ctx op s).line
      refine ⟨errors ++ [e], by rw [← List.append_assoc]; exact hlap, ?_, hleft⟩
      rw [List.length_append, List.length_singleton, hattempts]

/-- The attempts that a journal tells of have ended with the context live. -/
def EndedLive (ctx : Context) (journal : List (Entry η ε α)) : Prop :=
  ∀ x ∈ journal, x.event.result? ≠ none → ctx.err x.line = none

omit [OfReason ε] in
theorem EndedLive.append (h : EndedLive ctx journal) (hmore : EndedLive ctx more) :
    EndedLive ctx (journal ++ more) := fun x hx =>
  (List.mem_append.mp hx).elim (h x) (hmore x)

omit [OfReason ε] in
theorem endedLive_of_pick (h : Entry.pick Event.result? journal = []) : EndedLive ctx journal :=
  fun x hx hresult => absurd (List.filterMap_eq_nil_iff.mp h x hx) hresult

omit [OfReason ε] in
theorem Decided.endedLive {d : Decision} (h : p.Decided view number e b ws events d)
    (ctx : Context) (line : Timeline) : EndedLive ctx (Entry.allAt line events) := by
  refine endedLive_of_pick ?_
  rw [Entry.pick_allAt]
  exact List.filterMap_eq_nil_iff.mpr fun x hx => (h.no_attempt x hx).2

/-- An attempt ends with the caller's context as it is found afterwards. -/
theorem endedLive_tried (hafter : ctx.err (p.tried ctx op s).line = none) :
    EndedLive ctx (p.tried ctx op s).journal := by
  intro x hx hresult
  rw [tried, err_attempt] at hafter
  rw [tried, journal_attempt] at hx
  rcases List.mem_cons.mp hx with rfl | hx
  · exact absurd rfl hresult
  · rcases List.mem_append.mp hx with hx | hx
    · obtain ⟨note, -, rfl⟩ := List.mem_map.mp hx
      exact absurd rfl hresult
    · obtain ⟨result, -, rfl⟩ := List.mem_map.mp hx
      exact hafter

theorem Reaches.endedLive (h : p.Reaches ctx ops l ws rest s journal) : EndedLive ctx journal := by
  induction h with
  | start => exact fun _ hx => nomatch hx
  | again h hlive hround ih =>
    cases turn_of_round hround with
    | again hr hafter hd hb =>
      exact ih.append ((endedLive_tried hafter).append ((decided_of_decision hd).endedLive ctx _))

/-- How a run ends after `n` laps: with one more attempt that it stops at, or that ends when the
context is done; with none, because the context is done by the end of a sleep or before an attempt;
with one that never ends; or for want of another. -/
inductive Closes (ctx : Context) (journal : List (Entry η ε α)) (n : Nat) :
    Status ε α → List Beat → Prop where
  | stopped {o : Outcome ε α} (ho : o.attempts = n + 1) (ht : o.termination? ≠ some .cancelled) :
      Closes ctx journal n (.returned o) [.begins (n + 1), .ends]
  | lost {e : ε} (x : Entry η ε α) (hx : x ∈ journal) (hresult : x.event.result? ≠ none)
      (hdone : ctx.isDone x.line = true) :
      Closes ctx journal n (.returned (.failure e (n + 1) .cancelled)) [.begins (n + 1), .ends]
  | between {e : ε} (hlive : EndedLive ctx journal) :
      Closes ctx journal n (.returned (.failure e n .cancelled)) []
  | stuck : Closes ctx journal n .stuck [.begins (n + 1)]
  | starved : Closes ctx journal n .starved []

/-- The last attempt of a run closes it, whichever way its round goes. -/
theorem Slept.closes {status : Status ε α} (h : p.Slept ws errors [] [] journal)
    (hattempts : errors.length = s.attempts) (hwords : s.words = p.wordsAfter 1 ws errors)
    (hlive : EndedLive ctx journal) (hround : p.round ctx op s = .stop status more line words) :
    ∃ errors last tail, p.Slept ws errors last tail (journal ++ more) ∧
      Closes ctx (journal ++ more) errors.length status tail := by
  have htried := h.tried ctx op s
  rw [← hattempts] at htried
  cases turn_of_round hround with
  | stuck hr =>
    rw [hr] at htried
    exact ⟨errors, _, _, htried, .stuck⟩
  | value hr =>
    rw [hr] at htried
    refine ⟨errors, _, _, htried, ?_⟩
    rw [← hattempts]
    exact .stopped rfl nofun
  | @lost e reason hr hdone =>
    rw [hr] at htried
    rw [← List.append_assoc, abandon, ← hattempts]
    refine ⟨errors, _, _, htried.silent rfl rfl, ?_⟩
    obtain ⟨before, hjournal⟩ := journal_attempt_ended hr
    refine .lost ⟨(p.watched ctx op s.line).line, .ended (.error e)⟩ ?_ nofun ?_
    · rw [Policy.tried, hjournal]
      simp
    · rw [Context.isDone, ← err_attempt]
      exact Option.isSome_iff_exists.mpr ⟨reason, hdone⟩
  | stopped hr hafter hd =>
    rw [hr] at htried
    have hdecided := decided_of_decision hd
    rw [← List.append_assoc]
    refine ⟨errors, _, _, htried.silent ?_ ?_, ?_⟩
    · rw [Entry.pick_allAt]
      exact hdecided.silent.1
    · rw [Entry.pick_allAt]
      exact hdecided.silent.2
    · rw [← hattempts]
      exact .stopped rfl fun h => hdecided.ne_cancelled (Option.some.inj h)
  | @interrupted e events b delay ws line reason hr hafter hd hb =>
    rw [hr] at htried
    rw [← hattempts] at hd
    have hdecided := decided_of_decision hd
    obtain ⟨hlap, -⟩ := htried.slept hwords hdecided (p.tried ctx op s).line
    have hends := (hlive.append (endedLive_tried hafter)).append
      (hdecided.endedLive ctx (p.tried ctx op s).line)
    rw [← List.append_assoc, ← List.append_assoc, abandon, ← hattempts]
    refine ⟨errors ++ [e], [], [], hlap.silent rfl rfl, ?_⟩
    rw [List.length_append, List.length_singleton]
    exact .between (hends.append (endedLive_of_pick rfl))

theorem exists_closes (p : Policy ε) (ctx : Context) (ops : List (Operation η ε α)) (l : Timeline)
    (ws : Words) : ∃ errors last tail,
      p.Slept ws errors last tail (p.run ctx ops l ws).journal ∧
      Closes ctx (p.run ctx ops l ws).journal errors.length (p.run ctx ops l ws).status tail := by
  obtain ⟨rest, s, journal, report, hreach, hlast, hrun⟩ := p.exists_last ctx ops l ws
  obtain ⟨errors, hslept, hattempts, hwords⟩ := hreach.slept
  have hlive := hreach.endedLive
  simp only [hrun, Report.after]
  cases hlast with
  | @abandoned _ _ reason hdone =>
    refine ⟨errors, [], [], hslept.silent rfl rfl, ?_⟩
    rw [abandonBefore, abandon, ← hattempts]
    exact .between (hlive.append (endedLive_of_pick rfl))
  | starved => exact ⟨errors, [], [], hslept.silent rfl rfl, .starved⟩
  | stopped _ hround => exact hslept.closes hattempts hwords hlive hround

end Policy

end Retry
