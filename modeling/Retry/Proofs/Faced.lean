import Retry.Proofs.Course
import Retry.Proofs.Outcome
import Retry.Proofs.Segment

namespace Retry

namespace Policy

variable {η ε α : Type} [OfReason ε] {p : Policy ε} {ctx : Context} {op : Operation η ε α}
  {ops rest : List (Operation η ε α)} {l : Timeline} {ws : Words} {s : Loop}
  {journal : List (Entry η ε α)}

/-- What a run does about attempt `number` having ended with `e` at `line`, once the policy has
decided: it stops with the error, or it waits and stands before another attempt, or it is abandoned
because the caller's context is done by the end of the wait. -/
inductive Obeys (p : Policy ε) (ctx : Context) (ops : List (Operation η ε α)) (l : Timeline)
    (ws : Words) (number : Nat) (e : ε) (line : Timeline) : Decision → Prop where
  | stopped {t : Termination}
      (hstatus : (p.run ctx ops l ws).status = .returned (.failure e number t))
      (ht : t ≠ .cancelled) : Obeys p ctx ops l ws number e line (.stop t)
  | again {b : Budget} {delay : Nat} {words : Words} {rest : List (Operation η ε α)}
      {journal : List (Entry η ε α)}
      (hnext : p.Reaches ctx ops l ws rest
        { line := line.advanceTo (p.sleeper.wake line.now delay), words, budget := b,
          attempts := number } journal) :
      Obeys p ctx ops l ws number e line (.retry b delay words)
  | abandoned {b : Budget} {delay : Nat} {words : Words} {moment : Nat} {reason : Reason}
      (hdone : ctx.signalAt line = some moment) (hwait : moment ≤ p.sleeper.wake line.now delay)
      (hline : (p.run ctx ops l ws).line = line.advanceTo moment)
      (hreason : ctx.err (p.run ctx ops l ws).line = some reason)
      (hstatus : (p.run ctx ops l ws).status = abandon reason number) :
      Obeys p ctx ops l ws number e line (.retry b delay words)

/-- Attempt `number` of a run ended with `e` at `line`, and the run faces it: it asks the policy as
about any failure, with the budget that it had before the attempt, writes what came of that first,
and does as it is told. -/
def Faces (p : Policy ε) (ctx : Context) (ops : List (Operation η ε α)) (l : Timeline) (ws : Words)
    (number : Nat) (e : ε) (line : Timeline) (after : List (Entry η ε α)) : Prop :=
  ∃ op rest s journal events d, p.Reaches ctx ops l ws (op :: rest) s journal ∧
    number = s.attempts + 1 ∧
    p.Decided (ctx.view line) number e s.budget s.words events d ∧
    Entry.allAt line events <+: after ∧ p.Obeys ctx ops l ws number e line d

/-- What a run writes after an attempt comes after it in time. -/
theorem Reaches.exists_after (h : p.Reaches ctx ops l ws (op :: rest) s journal)
    (hlive : ctx.err s.line = none) : ∃ after,
      (p.run ctx ops l ws).journal = journal ++ ((p.tried ctx op s).journal ++ after) ∧
      (p.tried ctx op s).line.Course (Entry.lines after) (p.run ctx ops l ws).line := by
  obtain ⟨tail, hwritten, hcourse⟩ := (p.turn_round ctx op s).course_after
  rw [h.run_eq]
  simp only [runFrom, hlive]
  cases hround : p.round ctx op s with
  | stop status more line words =>
    rw [hround] at hwritten hcourse
    exact ⟨tail, congrArg (journal ++ ·) hwritten, hcourse⟩
  | again more s' =>
    rw [hround] at hwritten hcourse
    have hmore : more = (p.tried ctx op s).journal ++ tail := hwritten
    refine ⟨tail ++ (p.runFrom ctx rest s').journal, ?_, ?_⟩
    · simp only [Report.after, hmore, List.append_assoc]
    · rw [Entry.lines_append]
      exact hcourse.append (p.course_runFrom ctx rest s')

/-- A failure under a live context is faced, whatever it is that failed. -/
theorem Reaches.faces {e : ε} {after : List (Entry η ε α)}
    (h : p.Reaches ctx ops l ws (op :: rest) s journal) (hlive : ctx.err s.line = none)
    (hr : (p.tried ctx op s).result = some (.error e))
    (hstill : ctx.err (p.tried ctx op s).line = none)
    (hjournal : (p.run ctx ops l ws).journal = journal ++ ((p.tried ctx op s).journal ++ after)) :
    p.Faces ctx ops l ws (s.attempts + 1) e (p.tried ctx op s).line after := by
  have hturn := p.turn_round ctx op s
  generalize hround : p.round ctx op s = r at hturn
  cases hturn with
  | stuck hr' | value hr' => simp [hr] at hr'
  | lost hr' hdone => simp [hstill] at hdone
  | stopped hr' _ hd =>
    obtain rfl := Except.error.inj (Option.some.inj (hr.symm.trans hr'))
    have hrun := h.run_eq_of_last (.stopped hlive hround)
    rw [hrun] at hjournal
    obtain rfl := List.append_cancel_left (List.append_cancel_left hjournal)
    refine ⟨op, rest, s, journal, _, _, h, rfl, decided_of_decision hd, List.prefix_refl _, ?_⟩
    exact .stopped (by rw [hrun]; rfl) (decided_of_decision hd).ne_cancelled
  | interrupted hr' _ hd hb =>
    obtain rfl := Except.error.inj (Option.some.inj (hr.symm.trans hr'))
    have hrun := h.run_eq_of_last (.stopped hlive hround)
    rw [hrun] at hjournal
    obtain rfl := List.append_cancel_left (List.append_cancel_left hjournal)
    obtain ⟨hreason, moment, hm, hle, rfl⟩ := backOff_eq_some hb
    refine ⟨op, rest, s, journal, _, _, h, rfl, decided_of_decision hd, List.prefix_append _ _, ?_⟩
    exact .abandoned hm hle (by rw [hrun]; rfl) (by rw [hrun]; exact Context.err_of_signal hreason)
      (by rw [hrun]; rfl)
  | again hr' _ hd hb =>
    obtain rfl := Except.error.inj (Option.some.inj (hr.symm.trans hr'))
    have hnext := h.again hlive hround
    rw [hnext.run_eq] at hjournal
    simp only [Report.after, List.append_assoc] at hjournal
    obtain rfl := List.append_cancel_left (List.append_cancel_left hjournal)
    obtain ⟨rfl, -⟩ := backOff_eq_none hb
    exact ⟨op, rest, s, journal, _, _, h, rfl, decided_of_decision hd, List.prefix_append _ _,
      .again hnext⟩

/-- A failed attempt is the end of the run if the caller's context is done by then. -/
theorem Reaches.abandons {e : ε} {reason : Reason}
    (h : p.Reaches ctx ops l ws (op :: rest) s journal) (hlive : ctx.err s.line = none)
    (hr : (p.tried ctx op s).result = some (.error e))
    (hdone : ctx.err (p.tried ctx op s).line = some reason) :
    (p.run ctx ops l ws).status = abandon reason (s.attempts + 1) := by
  have hturn := p.turn_round ctx op s
  generalize hround : p.round ctx op s = r at hturn
  cases hturn with
  | lost _ hdone' =>
    obtain rfl := Option.some.inj (hdone.symm.trans hdone')
    rw [h.run_eq_of_last (.stopped hlive hround)]
    rfl
  | stuck hr' | value hr' => simp [hr] at hr'
  | stopped _ hafter | interrupted _ hafter | again _ hafter => simp [hdone] at hafter

/-- An attempt that was made leaves what its work leaves, and all else that is written comes after
that has been given back; if the work failed, the run is abandoned or faces the failure. -/
theorem Made.faced {number : Nat} {op : Operation η ε α} {own : Context} {start : Timeline}
    (h : Made ops (p.run ctx ops l ws).journal number op own start) :
    let played := (op own).play own start
    ∃ before after, (p.run ctx ops l ws).journal =
        before ++ ⟨start, .invoked number own (own.err start)⟩ :: (entriesOf played ++ after) ∧
      (p.release own played.line).Course (Entry.lines after) (p.run ctx ops l ws).line ∧
      ∀ e, resultOf played.ending = some (.error e) →
        (∀ reason, ctx.err played.line = some reason →
          (p.run ctx ops l ws).status = abandon reason number) ∧
        (ctx.err played.line = none →
          p.Faces ctx ops l ws number e (p.release own played.line) after) := by
  intro played
  obtain ⟨rest, s, journal, hreach, hlive, rfl, hown⟩ := made_iff.mp h
  have hplay : p.watched ctx op s.line = played := by simp only [watched, hown, played]
  have hline : (p.tried ctx op s).line = p.release own played.line := by
    rw [line_tried, hown, hplay]
  have herr : ctx.err (p.tried ctx op s).line = ctx.err played.line := by
    rw [tried, err_attempt, hplay]
  obtain ⟨after, hjournal, hcourse⟩ := hreach.exists_after hlive
  refine ⟨journal, after, ?_, hline ▸ hcourse, fun e he => ?_⟩
  · rw [hjournal, tried, journal_attempt, result_attempt, hplay, hown]
    simp only [entriesOf, List.cons_append]
  · have hr : (p.tried ctx op s).result = some (.error e) := by
      rw [tried, result_attempt, hplay]
      exact he
    refine ⟨fun reason hdone => hreach.abandons hlive hr (herr.trans hdone), fun hstill => ?_⟩
    rw [← hline]
    exact hreach.faces hlive hr (herr.trans hstill) hjournal

end Policy

end Retry
