import Retry.Proofs.Attempt
import Retry.Proofs.Decision

namespace Retry

namespace Policy

variable {η ε α : Type}

/-- A backoff that is cut short ends with the signal of the context, which comes no later than the
wait would have ended. -/
theorem backOff_eq_some {p : Policy ε} {ctx : Context} {delay : Nat} {l l' : Timeline}
    {reason : Reason} (h : p.backOff ctx delay l = (l', some reason)) :
    ctx.signal l' = some reason ∧
      ∃ m, ctx.signalAt l = some m ∧ m ≤ p.sleeper.wake l.now delay ∧ l' = l.advanceTo m := by
  simp only [backOff] at h
  split at h
  · next m hm =>
    split at h
    · next hle =>
      simp only [Prod.mk.injEq] at h
      obtain ⟨rfl, hreason⟩ := h
      exact ⟨hreason, m, hm, hle, rfl⟩
    · simp at h
  · simp at h

theorem backOff_eq_none {p : Policy ε} {ctx : Context} {delay : Nat} {l l' : Timeline}
    (h : p.backOff ctx delay l = (l', none)) :
    l' = l.advanceTo (p.sleeper.wake l.now delay) ∧
      ∀ m, ctx.signalAt l = some m → p.sleeper.wake l.now delay < m := by
  simp only [backOff] at h
  split at h
  · next m hm =>
    obtain ⟨reason, hreason⟩ := Context.signal_of_signalAt hm
    split at h
    · simp [hreason] at h
    · next hlt =>
      simp only [Prod.mk.injEq, and_true] at h
      refine ⟨h.symm, fun m' hm' => ?_⟩
      have : m = m' := Option.some.inj (hm.symm.trans hm')
      omega
  · next hm =>
    simp only [Prod.mk.injEq, and_true] at h
    exact ⟨h.symm, fun m hm' => by rw [hm] at hm'; cases hm'⟩

variable [OfReason ε]

/-- How a round can turn out. -/
inductive Turn (p : Policy ε) (ctx : Context) (op : Operation η ε α) (s : Loop) :
    Round η ε α → Prop where
  | stuck (hr : (p.tried ctx op s).result = none) :
      Turn p ctx op s (.stop .stuck (p.tried ctx op s).journal (p.tried ctx op s).line s.words)
  | value {v : α} (hr : (p.tried ctx op s).result = some (.ok v)) :
      Turn p ctx op s (.stop (.returned (.success v (s.attempts + 1)))
        (p.tried ctx op s).journal (p.tried ctx op s).line s.words)
  | lost {e : ε} {reason : Reason} (hr : (p.tried ctx op s).result = some (.error e))
      (hdone : ctx.err (p.tried ctx op s).line = some reason) :
      Turn p ctx op s (.stop (abandon reason (s.attempts + 1))
        ((p.tried ctx op s).journal ++ Entry.allAt (p.tried ctx op s).line
          [.logged (.doneDuringAttempt (s.attempts + 1) reason)])
        (p.tried ctx op s).line s.words)
  | stopped {e : ε} {events : List (Event η ε α)} {t : Termination}
      (hr : (p.tried ctx op s).result = some (.error e))
      (hlive : ctx.err (p.tried ctx op s).line = none)
      (hd : p.decision (ctx.view (p.tried ctx op s).line) (s.attempts + 1) e s.budget s.words =
        (events, .stop t)) :
      Turn p ctx op s (.stop (.returned (.failure e (s.attempts + 1) t))
        ((p.tried ctx op s).journal ++ Entry.allAt (p.tried ctx op s).line events)
        (p.tried ctx op s).line s.words)
  | interrupted {e : ε} {events : List (Event η ε α)} {b : Budget} {delay : Nat} {ws : Words}
      {line : Timeline} {reason : Reason} (hr : (p.tried ctx op s).result = some (.error e))
      (hlive : ctx.err (p.tried ctx op s).line = none)
      (hd : p.decision (ctx.view (p.tried ctx op s).line) (s.attempts + 1) e s.budget s.words =
        (events, .retry b delay ws))
      (hb : p.backOff ctx delay (p.tried ctx op s).line = (line, some reason)) :
      Turn p ctx op s (.stop (abandon reason (s.attempts + 1))
        ((p.tried ctx op s).journal ++ (Entry.allAt (p.tried ctx op s).line events ++
          Entry.allAt line [.logged (.doneDuringBackoff (s.attempts + 1) reason)])) line ws)
  | again {e : ε} {events : List (Event η ε α)} {b : Budget} {delay : Nat} {ws : Words}
      {line : Timeline} (hr : (p.tried ctx op s).result = some (.error e))
      (hlive : ctx.err (p.tried ctx op s).line = none)
      (hd : p.decision (ctx.view (p.tried ctx op s).line) (s.attempts + 1) e s.budget s.words =
        (events, .retry b delay ws))
      (hb : p.backOff ctx delay (p.tried ctx op s).line = (line, none)) :
      Turn p ctx op s (.again
        ((p.tried ctx op s).journal ++ Entry.allAt (p.tried ctx op s).line events)
        { line, words := ws, budget := b, attempts := s.attempts + 1 })

theorem turn_round (p : Policy ε) (ctx : Context) (op : Operation η ε α) (s : Loop) :
    p.Turn ctx op s (p.round ctx op s) := by
  have htried : p.attempt ctx (s.attempts + 1) op s.line = p.tried ctx op s := rfl
  simp only [round, htried]
  -- The cases come in the order of the checks: the result, the context, the decision, the wait.
  cases hr : (p.tried ctx op s).result with
  | none => exact .stuck hr
  | some result =>
    cases result with
    | ok v => exact .value hr
    | error e =>
      cases hdone : ctx.err (p.tried ctx op s).line with
      | some reason =>
        simp only [afterFailure, hdone, Round.after]
        exact .lost hr hdone
      | none =>
        cases hd : p.decision (η := η) (α := α) (ctx.view (p.tried ctx op s).line) (s.attempts + 1)
            e s.budget s.words with
        | mk events d =>
          cases d with
          | stop t =>
            simp only [afterFailure, hdone, hd, Round.after]
            exact .stopped hr hdone hd
          | retry b delay ws =>
            cases hb : p.backOff ctx delay (p.tried ctx op s).line with
            | mk line cut =>
              cases cut with
              | some reason =>
                simp only [afterFailure, hdone, hd, hb, Round.after]
                exact .interrupted hr hdone hd hb
              | none =>
                simp only [afterFailure, hdone, hd, hb, Round.after]
                exact .again hr hdone hd hb

theorem turn_of_round {p : Policy ε} {ctx : Context} {op : Operation η ε α} {s : Loop}
    {r : Round η ε α} (h : p.round ctx op s = r) : p.Turn ctx op s r := h ▸ p.turn_round ctx op s

/-- No two rules apply to one round. -/
theorem Turn.round_eq {p : Policy ε} {ctx : Context} {op : Operation η ε α} {s : Loop}
    {r : Round η ε α} (h : p.Turn ctx op s r) : p.round ctx op s = r := by
  have htried : p.attempt ctx (s.attempts + 1) op s.line = p.tried ctx op s := rfl
  cases h with
  | stuck hr | value hr => simp only [round, htried, hr]
  | lost hr hdone => simp only [round, htried, hr, afterFailure, hdone, Round.after]
  | stopped hr hlive hd => simp only [round, htried, hr, afterFailure, hlive, hd, Round.after]
  | interrupted hr hlive hd hb | again hr hlive hd hb =>
    simp only [round, htried, hr, afterFailure, hlive, hd, hb, Round.after]

def Round.written : Round η ε α → List (Entry η ε α)
  | .stop _ journal _ _ => journal
  | .again journal _ => journal

/-- A round is one attempt, and what follows it neither begins nor ends another. -/
theorem Turn.written_eq {p : Policy ε} {ctx : Context} {op : Operation η ε α} {s : Loop}
    {r : Round η ε α} (h : p.Turn ctx op s r) :
    ∃ tail, r.written = (p.tried ctx op s).journal ++ tail ∧
      ∀ e ∈ tail, e.event.invocation? = none ∧ e.event.result? = none := by
  cases h with
  | stuck | value => exact ⟨[], (List.append_nil _).symm, by simp⟩
  | lost => exact ⟨_, rfl, by simp [Entry.allAt, Event.invocation?, Event.result?]⟩
  | stopped hr hlive hd | again hr hlive hd hb =>
    refine ⟨_, rfl, ?_⟩
    simpa [Entry.allAt] using (decided_of_decision hd).no_attempt
  | interrupted hr hlive hd hb =>
    refine ⟨_, rfl, fun e he => ?_⟩
    rcases List.mem_append.mp he with he | he
    · obtain ⟨x, hx, rfl⟩ := List.mem_map.mp he
      exact (decided_of_decision hd).no_attempt x hx
    · obtain rfl := List.mem_singleton.mp he
      exact ⟨rfl, rfl⟩

theorem Turn.views {p : Policy ε} {ctx : Context} {op : Operation η ε α} {s : Loop}
    {r : Round η ε α} (h : p.Turn ctx op s r) :
    Entry.pick Event.invocation? r.written = [s.attempts + 1] ∧
      Entry.pick Event.result? r.written = (p.tried ctx op s).result.toList := by
  obtain ⟨tail, hwritten, htail⟩ := h.written_eq
  rw [hwritten, Entry.pick_append, Entry.pick_append, Entry.pick_eq_nil fun e he => (htail e he).1,
    Entry.pick_eq_nil fun e he => (htail e he).2]
  simp

theorem Turn.invoked_mem_iff {p : Policy ε} {ctx : Context} {op : Operation η ε α} {s : Loop}
    {r : Round η ε α} {start : Timeline} {number : Nat} {own : Context} {err : Option Reason}
    (h : p.Turn ctx op s r) : ⟨start, .invoked number own err⟩ ∈ r.written ↔
      number = s.attempts + 1 ∧ p.attemptContext ctx s.line = (own, start) ∧
        err = own.err start := by
  obtain ⟨tail, hwritten, htail⟩ := h.written_eq
  rw [hwritten, tried, journal_attempt]
  constructor
  · intro he
    rcases List.mem_append.mp he with he | he
    · rcases List.mem_cons.mp he with he | he
      · cases he
        exact ⟨rfl, rfl, rfl⟩
      · simp at he
    · exact absurd (htail _ he).1 (by simp [Event.invocation?])
  · rintro ⟨rfl, hown, rfl⟩
    rw [hown]
    exact List.mem_append_left _ List.mem_cons_self

end Policy

end Retry
