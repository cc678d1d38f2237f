import Retry.Proofs.Reached

namespace Retry

namespace Event

variable {η ε α : Type}

def note? : Event η ε α → Option η
  | noted what => some what
  | _ => none

theorem eq_noted {x : Event η ε α} {what : η} (h : x.note? = some what) : x = .noted what := by
  cases x with
  | noted what' => exact congrArg noted (Option.some.inj h)
  | invoked | ended | asked | judged | hinted | slept | logged => cases h

/-- Nothing that an attempt leaves: neither its begin, nor a note, nor its end. -/
def Outside (x : Event η ε α) : Prop := x.invocation? = none ∧ x.note? = none ∧ x.result? = none

end Event

namespace Entry

variable {η ε α : Type}

/-- The entries of a journal between the invocation of an attempt and the next one. -/
def during (number : Nat) (journal : List (Entry η ε α)) : List (Entry η ε α) :=
  ((journal.dropWhile fun e => decide (e.event.invocation? ≠ some number)).drop 1).takeWhile
    fun e => e.event.invocation?.isNone

theorem during_eq {number : Nat} {before body after : List (Entry η ε α)} {e : Entry η ε α}
    (hbefore : ∀ x ∈ before, x.event.invocation? ≠ some number)
    (he : e.event.invocation? = some number) (hbody : ∀ x ∈ body, x.event.invocation? = none)
    (hafter : ∀ x ∈ after.head?, x.event.invocation? ≠ none) :
    during number (before ++ e :: (body ++ after)) = body := by
  have hdrop : (before ++ e :: (body ++ after)).dropWhile
      (fun x => decide (x.event.invocation? ≠ some number)) = e :: (body ++ after) := by
    rw [List.dropWhile_append_of_pos fun x hx => decide_eq_true (hbefore x hx)]
    simp [he]
  have htake : after.takeWhile (fun x => x.event.invocation?.isNone) = [] := by
    cases after with
    | nil => rfl
    | cons x rest =>
      have hx := hafter x rfl
      simpa [List.takeWhile_cons] using hx
  have hall : ∀ x ∈ body, x.event.invocation?.isNone = true := by
    intro x hx
    rw [hbody x hx]
    rfl
  rw [during, hdrop, List.drop_one, List.tail_cons, List.takeWhile_append_of_pos hall, htake,
    List.append_nil]

end Entry

namespace Policy

variable {η ε α : Type}

theorem Decided.outside {p : Policy ε} {view : Context.View} {number : Nat} {e : ε} {b : Budget}
    {ws : Words} {events : List (Event η ε α)} {d : Decision}
    (h : p.Decided view number e b ws events d) : ∀ x ∈ events, x.Outside := by
  cases h with
  | early => simp [Event.Outside, Event.invocation?, Event.note?, Event.result?]
  | spent =>
    cases hearly : p.earlyReturn <;>
      simp [passed, hearly, Event.Outside, Event.invocation?, Event.note?, Event.result?]
  | retry =>
    cases hearly : p.earlyReturn <;> cases hhint : p.delayHint <;>
      simp [passed, hintAsked, hearly, hhint, Event.Outside, Event.invocation?, Event.note?,
        Event.result?]

variable [OfReason ε] {p : Policy ε} {ctx : Context} {op : Operation η ε α}
  {ops rest : List (Operation η ε α)} {l : Timeline} {ws : Words} {s : Loop}
  {journal : List (Entry η ε α)}

/-- What a round writes behind its attempt is no part of an attempt. -/
theorem Turn.outside {r : Round η ε α} (h : p.Turn ctx op s r) : ∃ tail,
    r.written = (p.tried ctx op s).journal ++ tail ∧ ∀ e ∈ tail, e.event.Outside := by
  have hall : ∀ {line : Timeline} {events : List (Event η ε α)}, (∀ x ∈ events, x.Outside) →
      ∀ e ∈ Entry.allAt line events, e.event.Outside := by
    intro line events hevents e he
    obtain ⟨x, hx, rfl⟩ := List.mem_map.mp he
    exact hevents x hx
  have hlog : ∀ log : Log, ∀ x ∈ [(.logged log : Event η ε α)], x.Outside := by
    intro log x hx
    obtain rfl := List.mem_singleton.mp hx
    exact ⟨rfl, rfl, rfl⟩
  cases h with
  | stuck | value => exact ⟨[], (List.append_nil _).symm, nofun⟩
  | lost => exact ⟨_, rfl, hall (hlog _)⟩
  | stopped hr hlive hd | again hr hlive hd => exact ⟨_, rfl, hall (decided_of_decision hd).outside⟩
  | interrupted hr hlive hd hb =>
    refine ⟨_, rfl, fun e he => ?_⟩
    rcases List.mem_append.mp he with he | he
    · exact hall (decided_of_decision hd).outside e he
    · exact hall (hlog _) e he

/-- A run that stands before an attempt goes on with one, behind nothing that one leaves. -/
theorem runFrom_opens (p : Policy ε) (ctx : Context) (ops : List (Operation η ε α)) (s : Loop) :
    ∃ silent later, (p.runFrom ctx ops s).journal = silent ++ later ∧
      (∀ e ∈ silent, e.event.Outside) ∧ ∀ e ∈ later.head?, e.event.invocation? ≠ none := by
  have habandoned : ∀ (reason : Reason) (untried : List (Operation η ε α)),
      ∀ e ∈ (abandonBefore (ε := ε) reason s untried).journal, e.event.Outside := by
    intro reason untried e he
    obtain rfl := List.mem_singleton.mp he
    exact ⟨rfl, rfl, rfl⟩
  cases hdone : ctx.err s.line with
  | some reason =>
    refine ⟨_, [], (List.append_nil _).symm, ?_, by simp⟩
    cases ops <;> simp only [runFrom, hdone] <;> exact habandoned reason _
  | none =>
    cases ops with
    | nil =>
      simp only [runFrom, hdone]
      exact ⟨[], [], rfl, by simp, by simp⟩
    | cons op rest =>
      refine ⟨[], _, rfl, by simp, ?_⟩
      obtain ⟨tail, hwritten, -⟩ := (p.turn_round ctx op s).outside
      rw [tried, journal_attempt] at hwritten
      intro e he
      cases hround : p.round ctx op s with
      | stop status more line words =>
        rw [hround] at hwritten
        simp only [runFrom, hdone, hround, show more = _ from hwritten] at he
        obtain rfl := Option.some.inj he
        exact Option.some_ne_none _
      | again more s' =>
        rw [hround] at hwritten
        simp only [runFrom, hdone, hround, Report.after, show more = _ from hwritten] at he
        obtain rfl := Option.some.inj he
        exact Option.some_ne_none _

/-- What a run writes from an attempt on: what the round of the attempt does, and then, behind
nothing that an attempt leaves, the next attempt. -/
theorem runFrom_round (p : Policy ε) (op : Operation η ε α) (rest : List (Operation η ε α))
    (hlive : ctx.err s.line = none) :
    ∃ silent later, (p.runFrom ctx (op :: rest) s).journal =
        (p.round ctx op s).written ++ (silent ++ later) ∧
      (∀ e ∈ silent, e.event.Outside) ∧ ∀ e ∈ later.head?, e.event.invocation? ≠ none := by
  cases hround : p.round ctx op s with
  | stop status more line words =>
    refine ⟨[], [], ?_, nofun, nofun⟩
    simp only [runFrom, hlive, hround, Round.written, List.append_nil]
  | again more s' =>
    obtain ⟨silent, later, hjournal, hsilent, hlater⟩ := p.runFrom_opens ctx rest s'
    refine ⟨silent, later, ?_, hsilent, hlater⟩
    simp only [runFrom, hlive, hround, Round.written, Report.after, hjournal]

/-- What work that is over writes as an attempt. -/
def entriesOf (q : Played η ε α) : List (Entry η ε α) :=
  q.notes.map (fun note => ⟨note.1, .noted note.2⟩) ++
    (resultOf q.ending).toList.map fun result => ⟨q.line, .ended result⟩

theorem invocation_of_mem_entriesOf {q : Played η ε α} {e : Entry η ε α} (he : e ∈ entriesOf q) :
    e.event.invocation? = none := by
  rcases List.mem_append.mp he with he | he
  · obtain ⟨note, -, rfl⟩ := List.mem_map.mp he
    rfl
  · obtain ⟨result, -, rfl⟩ := List.mem_map.mp he
    rfl

/-- The entries of an attempt are those of its work, and such as no attempt leaves. -/
theorem exists_during {op : Operation η ε α} {number : Nat} {own : Context} {start : Timeline}
    (h : Made ops (p.run ctx ops l ws).journal number op own start) : ∃ tail,
      Entry.during number (p.run ctx ops l ws).journal =
        entriesOf ((op own).play own start) ++ tail ∧ ∀ e ∈ tail, e.event.Outside := by
  obtain ⟨rest, s, journal, hreach, hlive, rfl, hown⟩ := made_iff.mp h
  have hplay : p.watched ctx op s.line = (op own).play own start := by simp only [watched, hown]
  obtain ⟨tail, hwritten, htail⟩ := (p.turn_round ctx op s).outside
  obtain ⟨silent, later, hrun, hsilent, hlater⟩ := p.runFrom_round op rest hlive
  rw [tried, journal_attempt, result_attempt, hplay, hown] at hwritten
  have hbefore : ∀ e ∈ journal, e.event.invocation? ≠ some (s.attempts + 1) := by
    intro e he hinvoked
    have hmem : s.attempts + 1 ∈ Entry.pick Event.invocation? journal :=
      List.mem_filterMap.mpr ⟨e, he, hinvoked⟩
    rw [hreach.pick_invocation, List.mem_range'_1] at hmem
    omega
  have houtside : ∀ e ∈ tail ++ silent, e.event.Outside := by
    intro e he
    rcases List.mem_append.mp he with he | he
    · exact htail e he
    · exact hsilent e he
  have hbody : ∀ e ∈ entriesOf ((op own).play own start) ++ (tail ++ silent),
      e.event.invocation? = none := by
    intro e he
    rcases List.mem_append.mp he with he | he
    · exact invocation_of_mem_entriesOf he
    · exact (houtside e he).1
  have hinvoked : (⟨start, .invoked (s.attempts + 1) own (own.err start)⟩ :
      Entry η ε α).event.invocation? = some (s.attempts + 1) := rfl
  refine ⟨tail ++ silent, ?_, houtside⟩
  rw [← Entry.during_eq hbefore hinvoked hbody hlater, hreach.run_eq, Report.after, hrun, hwritten]
  simp only [entriesOf, List.cons_append, List.append_assoc]

/-- What can be read off the entries of an attempt is what can be read off its work. -/
theorem pick_during {β : Type} {f : Event η ε α → Option β} (hf : ∀ x, x.Outside → f x = none)
    {op : Operation η ε α} {number : Nat} {own : Context} {start : Timeline}
    (h : Made ops (p.run ctx ops l ws).journal number op own start) :
    Entry.pick f (Entry.during number (p.run ctx ops l ws).journal) =
      Entry.pick f (entriesOf ((op own).play own start)) := by
  obtain ⟨tail, hduring, htail⟩ := exists_during h
  have hnone : Entry.pick f tail = [] := Entry.pick_eq_nil fun e he => hf _ (htail e he)
  rw [hduring, Entry.pick_append, hnone, List.append_nil]

theorem pick_note_entriesOf (q : Played η ε α) :
    Entry.pick Event.note? (entriesOf q) = q.notes.map (·.2) := by
  have hended : Entry.pick Event.note? ((resultOf q.ending).toList.map
      fun result => (⟨q.line, .ended result⟩ : Entry η ε α)) = [] := by
    refine Entry.pick_eq_nil fun e he => ?_
    obtain ⟨result, -, rfl⟩ := List.mem_map.mp he
    rfl
  rw [entriesOf, Entry.pick_append, hended, List.append_nil, Entry.pick, List.filterMap_map,
    ← List.filterMap_eq_map]
  rfl

theorem pick_result_entriesOf (q : Played η ε α) :
    Entry.pick Event.result? (entriesOf q) = (resultOf q.ending).toList := by
  have hnotes : Entry.pick Event.result?
      (q.notes.map fun note => (⟨note.1, .noted note.2⟩ : Entry η ε α)) = [] := by
    refine Entry.pick_eq_nil fun e he => ?_
    obtain ⟨note, -, rfl⟩ := List.mem_map.mp he
    rfl
  rw [entriesOf, Entry.pick_append, hnotes, List.nil_append]
  cases resultOf q.ending <;> rfl

/-- What is noted in a run is noted by the work of one of its attempts. -/
theorem exists_made_of_noted {line : Timeline} {what : η}
    (h : ⟨line, .noted what⟩ ∈ (p.run ctx ops l ws).journal) : ∃ number op own start,
      Made ops (p.run ctx ops l ws).journal number op own start ∧
        (line, what) ∈ ((op own).play own start).notes := by
  obtain ⟨rest, s, journal, hreach, ⟨op, rest', rfl, hlive, hmem⟩ | ⟨reason, -, hlog⟩⟩ :=
    of_mem_run h
  · refine ⟨s.attempts + 1, op, (p.attemptContext ctx s.line).1, (p.attemptContext ctx s.line).2,
      made_iff.mpr ⟨rest', s, journal, hreach, hlive, rfl, rfl⟩, ?_⟩
    obtain ⟨tail, hwritten, htail⟩ := (p.turn_round ctx op s).outside
    rw [hwritten, tried, journal_attempt] at hmem
    have hnot : ⟨line, .noted what⟩ ∉ tail := fun hin => Option.some_ne_none _ (htail _ hin).2.1
    simpa [hnot, watched] using hmem
  · cases hlog

end Policy

end Retry
