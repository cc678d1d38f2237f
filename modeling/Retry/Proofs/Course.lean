import Retry.Proofs.Played
import Retry.Proofs.Reached

namespace Retry

/-- Calls are what a run makes of its caller: it invokes the operation, asks a predicate, or
requests a sleep. -/
def Event.isCall {η ε α : Type} : Event η ε α → Bool
  | invoked .. | asked .. | judged .. | hinted .. | slept .. => true
  | noted .. | ended .. | logged .. => false

namespace Entry

variable {η ε α : Type}

def lines (journal : List (Entry η ε α)) : List Timeline := journal.map (·.line)

@[simp] theorem lines_append (j k : List (Entry η ε α)) : lines (j ++ k) = lines j ++ lines k :=
  List.map_append

theorem course_allAt {l l' : Timeline} (h : l.Before l') (events : List (Event η ε α)) :
    l.Course (lines (allAt l events)) l' := by
  induction events with
  | nil => exact Timeline.course_nil h
  | cons event events ih => exact Timeline.course_cons (Timeline.before_refl l) ih

end Entry

theorem Context.above_withTimeout (c : Context) (timeout : Nat) (l : Timeline) :
    c.Above (c.withTimeout timeout l).1 := by
  unfold withTimeout
  split
  · refine ⟨Token.covers_child _ _, fun d hd => ⟨_, rfl, ?_⟩⟩
    rw [Option.mem_def.mp hd]
    exact Nat.min_le_left _ _
  · exact ⟨Token.covers_child _ _, fun d hd => ⟨d, hd, Nat.le_refl d⟩⟩

theorem Context.onward_withTimeout (c : Context) (timeout : Nat) (l : Timeline) :
    l.Onward [] (c.withTimeout timeout l).2 := by
  unfold withTimeout
  split <;> exact l.onward_derive c.token

namespace Policy

variable {η ε α : Type}

theorem above_attemptContext (p : Policy ε) (ctx : Context) (l : Timeline) :
    ctx.Above (p.attemptContext ctx l).1 := by
  unfold attemptContext
  split
  · exact ctx.above_withTimeout _ l
  · exact ctx.above_refl

theorem onward_attemptContext (p : Policy ε) (ctx : Context) (l : Timeline) :
    l.Onward [] (p.attemptContext ctx l).2 := by
  unfold attemptContext
  split
  · exact ctx.onward_withTimeout _ l
  · exact l.onward_refl

theorem before_release (p : Policy ε) (own : Context) (l : Timeline) :
    l.Before (p.release own l) := by
  unfold release
  split
  · exact (l.onward_cancel _).before
  · exact l.before_refl

theorem now_release (p : Policy ε) (own : Context) (l : Timeline) :
    (p.release own l).now = l.now := by
  unfold release
  split <;> rfl

theorem now_attemptContext (p : Policy ε) (ctx : Context) (l : Timeline) :
    (p.attemptContext ctx l).2.now = l.now := by
  unfold attemptContext
  split
  · unfold Context.withTimeout
    split <;> rfl
  · rfl

/-- Before an attempt a context is as it is when the operation is invoked. -/
theorem err_attemptContext (p : Policy ε) (ctx c : Context) (l : Timeline) :
    c.err (p.attemptContext ctx l).2 = c.err l := by
  unfold attemptContext
  split
  · unfold Context.withTimeout
    split <;> rfl
  · rfl

variable [OfReason ε] {p : Policy ε} {ctx : Context} {op : Operation η ε α}
  {ops rest : List (Operation η ε α)} {l : Timeline} {ws : Words} {s : Loop}
  {journal : List (Entry η ε α)} {r : Round η ε α} {e : Entry η ε α} {m : Nat}

omit [OfReason ε] in
theorem plays_watched (p : Policy ε) (ctx : Context) (op : Operation η ε α) (l : Timeline) :
    Task.Plays (p.attemptContext ctx l).1 (op (p.attemptContext ctx l).1)
      (p.attemptContext ctx l).2
      ((op (p.attemptContext ctx l).1).revoked (p.attemptContext ctx l).1
        (p.attemptContext ctx l).2) (p.watched ctx op l) :=
  Task.plays_play _ _ _

theorem line_tried (p : Policy ε) (ctx : Context) (op : Operation η ε α) (s : Loop) :
    (p.tried ctx op s).line =
      p.release (p.attemptContext ctx s.line).1 (p.watched ctx op s.line).line := rfl

theorem now_tried (p : Policy ε) (ctx : Context) (op : Operation η ε α) (s : Loop) :
    (p.tried ctx op s).line.now = (p.watched ctx op s.line).line.now := by
  rw [line_tried, now_release]

theorem resultOf_ne_none {ending : Ending ε α} (h : ending ≠ .stuck) :
    resultOf ending ≠ none := by
  cases ending with
  | finished | cutOff => nofun
  | stuck => exact absurd rfl h

theorem course_tried (p : Policy ε) (ctx : Context) (op : Operation η ε α) (s : Loop) :
    s.line.Course (Entry.lines (p.tried ctx op s).journal) (p.tried ctx op s).line := by
  have hstart := (p.onward_attemptContext ctx s.line).before
  have hnotes := (p.plays_watched ctx op s.line).course
  have hend := p.before_release (p.attemptContext ctx s.line).1 (p.watched ctx op s.line).line
  rw [line_tried, tried, journal_attempt]
  refine Timeline.course_cons hstart ?_
  rw [← Entry.lines, Entry.lines_append]
  have hwork : (p.attemptContext ctx s.line).2.Course
      (Entry.lines ((p.watched ctx op s.line).notes.map
        (fun note => (⟨note.1, .noted note.2⟩ : Entry η ε α))))
      (p.watched ctx op s.line).line := by
    simpa [Entry.lines, Function.comp_def] using hnotes
  refine hwork.append ?_
  cases (p.attempt ctx (s.attempts + 1) op s.line).result with
  | none => exact Timeline.course_nil hend
  | some result => exact Timeline.course_cons (Timeline.before_refl _) (Timeline.course_nil hend)

/-- An attempt is over by the moment at which the caller's context is due. -/
theorem tried_over_by (hdue : ctx.DueBy s.line m) :
    (p.tried ctx op s).line.now ≤ m ∧ (p.tried ctx op s).result ≠ none := by
  have hstart := hdue.later (p.onward_attemptContext ctx s.line).before
    (Nat.le_trans (Nat.le_of_eq (p.now_attemptContext ctx s.line)) hdue.now_le)
  have hover := (p.plays_watched ctx op s.line).over_by
    ((p.above_attemptContext ctx s.line).dueBy hstart)
  exact ⟨(p.now_tried ctx op s).symm ▸ hover.1, resultOf_ne_none hover.2⟩

/-- An attempt begins with its invocation, then come the notes of its work, and last its result. -/
theorem of_mem_tried (he : e ∈ (p.tried ctx op s).journal) :
    e = ⟨(p.attemptContext ctx s.line).2, .invoked (s.attempts + 1) (p.attemptContext ctx s.line).1
        ((p.attemptContext ctx s.line).1.err (p.attemptContext ctx s.line).2)⟩ ∨
      (∃ what, (e.line, what) ∈ (p.watched ctx op s.line).notes ∧ e.event = .noted what) ∨
      ∃ result, (p.tried ctx op s).result = some result ∧
        e = ⟨(p.watched ctx op s.line).line, .ended result⟩ := by
  rw [tried, journal_attempt] at he
  rcases List.mem_cons.mp he with rfl | he
  · exact Or.inl rfl
  · rcases List.mem_append.mp he with he | he
    · obtain ⟨note, hnote, rfl⟩ := List.mem_map.mp he
      exact Or.inr (Or.inl ⟨note.2, hnote, rfl⟩)
    · obtain ⟨result, hresult, rfl⟩ := List.mem_map.mp he
      exact Or.inr (Or.inr ⟨result, Option.mem_toList.mp hresult, rfl⟩)

/-- An attempt is over by the moment at which the caller's context is due at any of its entries. -/
theorem tried_over_by_of_mem (he : e ∈ (p.tried ctx op s).journal) (hdue : ctx.DueBy e.line m) :
    (p.tried ctx op s).line.now ≤ m ∧ (p.tried ctx op s).result ≠ none := by
  have hown := (p.above_attemptContext ctx s.line).dueBy hdue
  have hplays := p.plays_watched ctx op s.line
  rw [now_tried]
  rcases of_mem_tried he with rfl | ⟨what, hnote, -⟩ | ⟨result, hresult, rfl⟩
  · obtain ⟨hnow, hends⟩ := hplays.over_by hown
    exact ⟨hnow, resultOf_ne_none hends⟩
  · obtain ⟨hnow, hends⟩ := hplays.over_by_of_note hnote hown
    exact ⟨hnow, resultOf_ne_none hends⟩
  · exact ⟨hdue.now_le, by simp [hresult]⟩

theorem tried_call_live (hlive : ctx.err s.line = none) (he : e ∈ (p.tried ctx op s).journal)
    (hcall : e.event.isCall = true) : ctx.err e.line = none := by
  rcases of_mem_tried he with rfl | ⟨what, -, hevent⟩ | ⟨result, -, rfl⟩
  · rw [← hlive]
    exact p.err_attemptContext ctx ctx s.line
  · rw [hevent] at hcall
    cases hcall
  · cases hcall

def Round.line : Round η ε α → Timeline
  | .stop _ _ line _ => line
  | .again _ s => s.line

omit [OfReason ε] in
theorem onward_backOff {delay : Nat} {l' : Timeline} {cut : Option Reason}
    (h : p.backOff ctx delay l = (l', cut)) : l.Onward [] l' := by
  cases cut with
  | none =>
    obtain ⟨rfl, -⟩ := backOff_eq_none h
    exact l.onward_advanceTo _
  | some reason =>
    obtain ⟨-, m, -, -, rfl⟩ := backOff_eq_some h
    exact l.onward_advanceTo m

omit [OfReason ε] in
/-- A wait is over by the moment at which the context is due. -/
theorem backOff_over_by {delay : Nat} {l' : Timeline} {cut : Option Reason}
    (h : p.backOff ctx delay l = (l', cut)) (hdue : ctx.DueBy l m) : l'.now ≤ m := by
  have hnow := hdue.now_le
  obtain ⟨moment, hmoment, hle⟩ := hdue
  cases cut with
  | none =>
    obtain ⟨rfl, hlate⟩ := backOff_eq_none h
    exact Nat.max_le.mpr ⟨hnow, Nat.le_trans (Nat.le_of_lt (hlate moment hmoment)) hle⟩
  | some reason =>
    obtain ⟨-, moment', hmoment', -, rfl⟩ := backOff_eq_some h
    obtain rfl : moment' = moment := Option.some.inj (hmoment'.symm.trans hmoment)
    exact Nat.max_le.mpr ⟨hnow, hle⟩

/-- What a round writes after its attempt comes after it in time. -/
theorem Turn.course_after (h : p.Turn ctx op s r) : ∃ tail,
    r.written = (p.tried ctx op s).journal ++ tail ∧
      (p.tried ctx op s).line.Course (Entry.lines tail) r.line := by
  cases h with
  | stuck | value =>
    exact ⟨[], (List.append_nil _).symm, Timeline.course_nil (Timeline.before_refl _)⟩
  | lost | stopped => exact ⟨_, rfl, Entry.course_allAt (Timeline.before_refl _) _⟩
  | again hr hlive hd hb => exact ⟨_, rfl, Entry.course_allAt (onward_backOff hb).before _⟩
  | interrupted hr hlive hd hb =>
    refine ⟨_, rfl, ?_⟩
    rw [Entry.lines_append]
    refine (Entry.course_allAt (onward_backOff hb).before _).append ?_
    exact Entry.course_allAt (Timeline.before_refl _) _

theorem Turn.course (h : p.Turn ctx op s r) : s.line.Course (Entry.lines r.written) r.line := by
  obtain ⟨tail, hwritten, hcourse⟩ := h.course_after
  rw [hwritten, Entry.lines_append]
  exact (p.course_tried ctx op s).append hcourse

theorem Turn.over_by (h : p.Turn ctx op s r) (hdue : ctx.DueBy s.line m) :
    r.line.now ≤ m ∧ ∀ journal line words, r ≠ .stop .stuck journal line words := by
  obtain ⟨hnow, hresult⟩ : (p.tried ctx op s).line.now ≤ m ∧ (p.tried ctx op s).result ≠ none :=
    tried_over_by hdue
  have hafter := hdue.later (p.course_tried ctx op s).before hnow
  cases h with
  | stuck hr => exact absurd hr hresult
  | value | lost | stopped => exact ⟨hnow, nofun⟩
  | interrupted hr hlive hd hb | again hr hlive hd hb => exact ⟨backOff_over_by hb hafter, nofun⟩

/-- An entry of a round was written in its attempt, or after it with the context live where it
ended, or it tells of the context being found done, which ends the run. -/
theorem Turn.entry (h : p.Turn ctx op s r) (he : e ∈ r.written) :
    e ∈ (p.tried ctx op s).journal ∨
    (ctx.err (p.tried ctx op s).line = none ∧ e.line = (p.tried ctx op s).line) ∨
    e.event.isCall = false ∧ ∃ o journal words, r = .stop (.returned o) journal e.line words := by
  have hasked : ∀ {line : Timeline} {events : List (Event η ε α)},
      e ∈ Entry.allAt line events → e.line = line := by
    intro line events hmem
    obtain ⟨event, -, rfl⟩ := List.mem_map.mp hmem
    rfl
  cases h with
  | stuck | value => exact Or.inl he
  | lost =>
    rcases List.mem_append.mp he with he | he
    · exact Or.inl he
    · obtain rfl := List.mem_singleton.mp he
      exact Or.inr (Or.inr ⟨rfl, _, _, _, rfl⟩)
  | stopped hr hlive | again hr hlive =>
    rcases List.mem_append.mp he with he | he
    · exact Or.inl he
    · exact Or.inr (Or.inl ⟨hlive, hasked he⟩)
  | interrupted hr hlive =>
    rcases List.mem_append.mp he with he | he
    · exact Or.inl he
    · rcases List.mem_append.mp he with he | he
      · exact Or.inr (Or.inl ⟨hlive, hasked he⟩)
      · obtain rfl := List.mem_singleton.mp he
        exact Or.inr (Or.inr ⟨rfl, _, _, _, rfl⟩)

/-- Every call of a round is made with the caller's context live. -/
theorem Turn.call_live (h : p.Turn ctx op s r) (hlive : ctx.err s.line = none)
    (he : e ∈ r.written) (hcall : e.event.isCall = true) : ctx.err e.line = none := by
  rcases h.entry he with htried | ⟨hafter, hline⟩ | ⟨hsilent, -⟩
  · exact tried_call_live hlive htried hcall
  · rw [hline, hafter]
  · rw [hcall] at hsilent
    cases hsilent

theorem Turn.returns_of_tried_isDone (h : p.Turn ctx op s r)
    (hdone : ctx.isDone (p.tried ctx op s).line = true) (hr : (p.tried ctx op s).result ≠ none) :
    ∃ o journal words, r = .stop (.returned o) journal (p.tried ctx op s).line words := by
  cases h with
  | stuck hnone => exact absurd hnone hr
  | value | lost => exact ⟨_, _, _, rfl⟩
  | stopped _ hlive | interrupted _ hlive | again _ hlive =>
    simp [Context.isDone, hlive] at hdone

/-- A note of work that is still going on, since the context's signal has yet to come. -/
def Lingers (ctx : Context) (e : Entry η ε α) : Prop :=
  (∃ what, e.event = .noted what) ∧ ctx.signal e.line = none

/-- A round in which the caller's context is found done is the last one. No time passes in it any
more, but for work that is still going on, which has until the context's signal comes. -/
theorem Turn.returns_of_isDone (h : p.Turn ctx op s r) (hlive : ctx.err s.line = none)
    (he : e ∈ r.written) (hdone : ctx.isDone e.line = true) : ∃ o journal line words,
      r = .stop (.returned o) journal line words ∧ (line.now ≤ e.moment ∨ Lingers ctx e) ∧
        ∀ m, ctx.DueBy e.line m → line.now ≤ m := by
  rcases h.entry he with htried | ⟨hafter, hline⟩ | ⟨-, o, journal, words, rfl⟩
  · have hover := fun m (hdue : ctx.DueBy e.line m) => (tried_over_by_of_mem htried hdue).1
    have hresult := (tried_over_by_of_mem htried
      (Context.dueBy_of_isDone hdone (Nat.le_refl _))).2
    have hbefore := ((p.course_tried ctx op s).mem (List.mem_map_of_mem htried)).2
    obtain ⟨o, journal, words, rfl⟩ :=
      h.returns_of_tried_isDone (Context.isDone_of_before hbefore hdone) hresult
    refine ⟨o, journal, _, words, rfl, ?_, hover⟩
    cases hsignal : ctx.signal e.line with
    | some reason =>
      exact Or.inl (hover _ ⟨_, Context.signalAt_of_signal hsignal, Nat.le_refl _⟩)
    | none =>
      rcases of_mem_tried htried with rfl | ⟨what, -, hevent⟩ | ⟨result, -, rfl⟩
      · have hstart := tried_call_live hlive htried rfl
        simp [Context.isDone, hstart] at hdone
      · exact Or.inr ⟨⟨what, hevent⟩, hsignal⟩
      · exact Or.inl (Nat.le_of_eq (p.now_tried ctx op s))
  · simp [Context.isDone, hline, hafter] at hdone
  · exact ⟨o, journal, _, words, rfl, Or.inl (Nat.le_refl _), fun m hdue => hdue.now_le⟩

theorem Reaches.run_eq_of_last {report : Report η ε α}
    (h : p.Reaches ctx ops l ws rest s journal) (hlast : p.Last ctx rest s report) :
    p.run ctx ops l ws = report.after journal := by
  rw [h.run_eq, hlast.runFrom_eq]

theorem Reaches.course (h : p.Reaches ctx ops l ws rest s journal) :
    l.Course (Entry.lines journal) s.line := by
  induction h with
  | start => exact Timeline.course_nil (Timeline.before_refl l)
  | again h hlive hround ih =>
    rw [Entry.lines_append]
    exact ih.append (turn_of_round hround).course

theorem course_runFrom (p : Policy ε) (ctx : Context) (ops : List (Operation η ε α)) (s : Loop) :
    s.line.Course (Entry.lines (p.runFrom ctx ops s).journal) (p.runFrom ctx ops s).line := by
  induction ops generalizing s with
  | nil =>
    cases hlive : ctx.err s.line with
    | some reason =>
      simp only [runFrom, hlive]
      exact Entry.course_allAt (Timeline.before_refl _) _
    | none =>
      simp only [runFrom, hlive]
      exact Timeline.course_nil (Timeline.before_refl _)
  | cons op rest ih =>
    cases hlive : ctx.err s.line with
    | some reason =>
      simp only [runFrom, hlive]
      exact Entry.course_allAt (Timeline.before_refl _) _
    | none =>
      have hturn := (p.turn_round ctx op s).course
      simp only [runFrom, hlive]
      cases hround : p.round ctx op s with
      | stop status journal line words =>
        rw [hround] at hturn
        exact hturn
      | again journal s' =>
        rw [hround] at hturn
        simp only [Report.after, Entry.lines_append]
        exact hturn.append (ih s')

/-- The journal of a run comes in the order of time. -/
theorem course_run (p : Policy ε) (ctx : Context) (ops : List (Operation η ε α)) (l : Timeline)
    (ws : Words) :
    l.Course (Entry.lines (p.run ctx ops l ws).journal) (p.run ctx ops l ws).line :=
  p.course_runFrom ctx ops { line := l, words := ws }

theorem Reaches.over_by (h : p.Reaches ctx ops l ws rest s journal) (hdue : ctx.DueBy l m) :
    s.line.now ≤ m := by
  induction h with
  | start => exact hdue.now_le
  | again h hlive hround ih =>
    exact ((turn_of_round hround).over_by (hdue.later h.course.before ih)).1

/-- By the moment at which the caller's context is due a run has returned, unless it wants another
attempt and there is none; then the context is not done yet. -/
theorem over_by (hdue : ctx.DueBy l m) : (p.run ctx ops l ws).line.now ≤ m ∧
    ((∃ o, (p.run ctx ops l ws).status = .returned o) ∨ (p.run ctx ops l ws).status = .starved ∧
      ctx.err (p.run ctx ops l ws).line = none) := by
  obtain ⟨rest, s, journal, report, hreach, hlast, hrun⟩ := p.exists_last ctx ops l ws
  have hnow := hreach.over_by hdue
  rw [hrun]
  cases hlast with
  | abandoned hdone => exact ⟨hnow, Or.inl ⟨_, rfl⟩⟩
  | starved hlive => exact ⟨hnow, Or.inr ⟨rfl, hlive⟩⟩
  | stopped hlive hround =>
    have hturn := turn_of_round hround
    obtain ⟨hline, hstuck⟩ := hturn.over_by (hdue.later hreach.course.before hnow)
    refine ⟨hline, Or.inl ?_⟩
    cases hturn with
    | stuck => exact absurd rfl (hstuck _ _ _)
    | value | lost | stopped | interrupted => exact ⟨_, rfl⟩

theorem call_live (he : e ∈ (p.run ctx ops l ws).journal) (hcall : e.event.isCall = true) :
    ctx.err e.line = none := by
  obtain ⟨rest, s, journal, -, ⟨op, rest', rfl, hlive, hmem⟩ | ⟨reason, -, rfl⟩⟩ := of_mem_run he
  · exact (p.turn_round ctx op s).call_live hlive hmem hcall
  · cases hcall

/-- Once the caller's context is found done, a run returns in that very moment, or in the course of
the attempt that is still going on, which has until the context's signal comes. -/
theorem returns_of_isDone (he : e ∈ (p.run ctx ops l ws).journal)
    (hdone : ctx.isDone e.line = true) : ∃ o, (p.run ctx ops l ws).status = .returned o ∧
      ((p.run ctx ops l ws).line.now = e.moment ∨ Lingers ctx e) ∧
      ∀ m, ctx.DueBy e.line m → (p.run ctx ops l ws).line.now ≤ m := by
  have hafter : e.moment ≤ (p.run ctx ops l ws).line.now :=
    ((p.course_run ctx ops l ws).mem (List.mem_map_of_mem he)).2.now_le
  obtain ⟨rest, s, journal, hreach, ⟨op, rest', rfl, hlive, hmem⟩ | ⟨reason, herr, rfl⟩⟩ :=
    of_mem_run he
  · obtain ⟨o, more, line, words, hround, hnow, hover⟩ :=
      (p.turn_round ctx op s).returns_of_isDone hlive hmem hdone
    rw [hreach.run_eq_of_last (.stopped hlive hround)] at hafter ⊢
    exact ⟨o, rfl, hnow.imp_left fun hnow => Nat.le_antisymm hnow hafter, hover⟩
  · rw [hreach.run_eq_of_last (.abandoned herr)]
    exact ⟨_, rfl, Or.inl rfl, fun m hdue => hdue.now_le⟩

end Policy

end Retry
