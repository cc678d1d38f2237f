import Retry.Proofs.Rounds

namespace Retry

namespace Policy

variable {η ε α : Type} [OfReason ε] {p : Policy ε} {ctx : Context}
  {ops rest : List (Operation η ε α)} {l : Timeline} {ws : Words} {s : Loop}
  {journal : List (Entry η ε α)}

/-- A run of `ops` from `l` on stands at `s` before an attempt, having written `journal`, and has
`rest` to try. -/
inductive Reaches (p : Policy ε) (ctx : Context) (ops : List (Operation η ε α)) (l : Timeline)
    (ws : Words) : List (Operation η ε α) → Loop → List (Entry η ε α) → Prop where
  | start : Reaches p ctx ops l ws ops { line := l, words := ws } []
  | again {op : Operation η ε α} {rest : List (Operation η ε α)} {s s' : Loop}
      {journal more : List (Entry η ε α)} (h : Reaches p ctx ops l ws (op :: rest) s journal)
      (hlive : ctx.err s.line = none) (hround : p.round ctx op s = .again more s') :
      Reaches p ctx ops l ws rest s' (journal ++ more)

omit [OfReason ε] in
theorem Report.after_after (j k : List (Entry η ε α)) (r : Report η ε α) :
    (r.after k).after j = r.after (j ++ k) := by
  simp only [Report.after, List.append_assoc]

theorem Reaches.run_eq (h : p.Reaches ctx ops l ws rest s journal) :
    p.run ctx ops l ws = (p.runFrom ctx rest s).after journal := by
  induction h with
  | start => rfl
  | again h hlive hround ih =>
    rw [ih]
    simp only [runFrom, hlive, hround]
    exact Report.after_after _ _ _

/-- How a run ends at a reached state from which it makes no further round to go on. -/
inductive Last (p : Policy ε) (ctx : Context) :
    List (Operation η ε α) → Loop → Report η ε α → Prop where
  | abandoned {rest : List (Operation η ε α)} {s : Loop} {reason : Reason}
      (hdone : ctx.err s.line = some reason) : Last p ctx rest s (abandonBefore reason s rest)
  | starved {s : Loop} (hlive : ctx.err s.line = none) :
      Last p ctx [] s ⟨.starved, [], s.line, s.words, []⟩
  | stopped {op : Operation η ε α} {rest : List (Operation η ε α)} {s : Loop} {status : Status ε α}
      {journal : List (Entry η ε α)} {line : Timeline} {words : Words}
      (hlive : ctx.err s.line = none)
      (hround : p.round ctx op s = .stop status journal line words) :
      Last p ctx (op :: rest) s ⟨status, journal, line, words, rest⟩

theorem Last.runFrom_eq {r : Report η ε α} (h : p.Last ctx rest s r) :
    p.runFrom ctx rest s = r := by
  cases h with
  | abandoned hdone => cases rest <;> simp only [runFrom, hdone]
  | starved hlive => simp only [runFrom, hlive]
  | stopped hlive hround => simp only [runFrom, hlive, hround]

/-- From `s` on a run makes one more attempt, and the policy stops it with the error of that. -/
structure Halts (p : Policy ε) (ctx : Context) (op : Operation η ε α) (s : Loop) (e : ε)
    (events : List (Event η ε α)) (t : Termination) : Prop where
  live : ctx.err s.line = none
  result : (p.tried ctx op s).result = some (.error e)
  after : ctx.err (p.tried ctx op s).line = none
  decided : p.Decided (ctx.view (p.tried ctx op s).line) (s.attempts + 1) e s.budget s.words events
    (.stop t)

theorem Last.halts {r : Report η ε α} {e : ε} {number : Nat} {t : Termination}
    (h : p.Last ctx rest s r) (hr : r.status = .returned (.failure e number t))
    (ht : t ≠ .cancelled) : ∃ op rest' events, rest = op :: rest' ∧ number = s.attempts + 1 ∧
      p.Halts ctx op s e events t ∧
      r.journal = (p.tried ctx op s).journal ++ Entry.allAt (p.tried ctx op s).line events := by
  cases h with
  | abandoned hdone =>
    cases hr
    exact absurd rfl ht
  | starved hlive => cases hr
  | stopped hlive hround =>
    cases turn_of_round hround with
    | stuck | value => cases hr
    | lost | interrupted =>
      cases hr
      exact absurd rfl ht
    | stopped hresult hafter hd =>
      cases hr
      exact ⟨_, _, _, rfl, rfl, ⟨hlive, hresult, hafter, decided_of_decision hd⟩, rfl⟩

private theorem Reaches.exists_last (h : p.Reaches ctx ops l ws rest s journal) :
    ∃ rest' s' journal' r, p.Reaches ctx ops l ws rest' s' journal' ∧ p.Last ctx rest' s' r := by
  induction rest generalizing s journal with
  | nil =>
    cases hdone : ctx.err s.line with
    | some reason => exact ⟨_, _, _, _, h, .abandoned hdone⟩
    | none => exact ⟨_, _, _, _, h, .starved hdone⟩
  | cons op rest ih =>
    cases hdone : ctx.err s.line with
    | some reason => exact ⟨_, _, _, _, h, .abandoned hdone⟩
    | none =>
      cases hround : p.round ctx op s with
      | stop status more line words => exact ⟨_, _, _, _, h, .stopped hdone hround⟩
      | again more s' => exact ih (h.again hdone hround)

theorem exists_last (p : Policy ε) (ctx : Context) (ops : List (Operation η ε α)) (l : Timeline)
    (ws : Words) : ∃ rest s journal r, p.Reaches ctx ops l ws rest s journal ∧
      p.Last ctx rest s r ∧ p.run ctx ops l ws = r.after journal := by
  obtain ⟨rest, s, journal, r, hreach, hlast⟩ :=
    (Reaches.start : p.Reaches ctx ops l ws ops _ []).exists_last
  refine ⟨rest, s, journal, r, hreach, hlast, ?_⟩
  rw [hreach.run_eq, hlast.runFrom_eq]

theorem Reaches.tried_eq (h : p.Reaches ctx ops l ws rest s journal) :
    ∃ before, ops = before ++ rest ∧ before.length = s.attempts := by
  induction h with
  | start => exact ⟨[], rfl, rfl⟩
  | @again op rest s s' journal more h hlive hround ih =>
    obtain ⟨before, hops, hlen⟩ := ih
    cases turn_of_round hround with
    | again hr hlive' hd hb =>
      refine ⟨before ++ [op], ?_, ?_⟩
      · rw [hops, List.append_assoc, List.singleton_append]
      · simp only [List.length_append, List.length_singleton, hlen]

/-- Attempts are numbered from one on, without a gap. -/
theorem Reaches.pick_invocation (h : p.Reaches ctx ops l ws rest s journal) :
    Entry.pick Event.invocation? journal = List.range' 1 s.attempts := by
  induction h with
  | start => rfl
  | again h hlive hround ih =>
    have hviews := (turn_of_round hround).views.1
    cases turn_of_round hround with
    | again hr hlive' hd hb =>
      rw [Entry.pick_append, ih, List.range'_1_concat, Nat.add_comm]
      exact congrArg _ hviews

theorem Reaches.pick_result (h : p.Reaches ctx ops l ws rest s journal) :
    ∃ errors : List ε, Entry.pick Event.result? journal = errors.map .error ∧
      errors.length = s.attempts := by
  induction h with
  | start => exact ⟨[], rfl, rfl⟩
  | again h hlive hround ih =>
    obtain ⟨errors, hres, hlen⟩ := ih
    have hviews := (turn_of_round hround).views.2
    cases turn_of_round hround with
    | @again e events b delay ws line hr hlive' hd hb =>
      refine ⟨errors ++ [e], ?_, by simp [hlen]⟩
      rw [hr] at hviews
      rw [Entry.pick_append, hres, List.map_append]
      exact congrArg _ hviews

theorem pick_invocation_run {o : Outcome ε α} (h : (p.run ctx ops l ws).status = .returned o) :
    Entry.pick Event.invocation? (p.run ctx ops l ws).journal = List.range' 1 o.attempts := by
  obtain ⟨rest, s, journal, r, hreach, hlast, hrun⟩ := p.exists_last ctx ops l ws
  have hinv := hreach.pick_invocation
  rw [hrun] at h ⊢
  simp only [Report.after] at h ⊢
  cases hlast with
  | abandoned hdone =>
    obtain rfl := Status.returned.inj h
    simp [abandonBefore, hinv, Event.invocation?, Outcome.attempts]
  | starved hlive => cases h
  | stopped hlive hround =>
    have hviews := (turn_of_round hround).views.1
    have hattempts : o.attempts = s.attempts + 1 := by
      cases turn_of_round hround with
      | stuck hr => cases h
      | value | lost | stopped | interrupted =>
        obtain rfl := Status.returned.inj h
        rfl
    rw [hattempts, List.range'_1_concat, Entry.pick_append, hinv, Nat.add_comm 1]
    exact congrArg _ hviews

theorem Reaches.of_mem {e : Entry η ε α} (h : p.Reaches ctx ops l ws rest s journal)
    (he : e ∈ journal) : ∃ op rest' s' journal', p.Reaches ctx ops l ws (op :: rest') s' journal' ∧
      ctx.err s'.line = none ∧ e ∈ (p.round ctx op s').written := by
  induction h with
  | start => cases he
  | again h hlive hround ih =>
    rcases List.mem_append.mp he with he | he
    · exact ih he
    · exact ⟨_, _, _, _, h, hlive, by rw [hround]; exact he⟩

/-- An entry of a run was written in a round from a reached state, or on finding the context done
there. -/
theorem of_mem_run {e : Entry η ε α} (he : e ∈ (p.run ctx ops l ws).journal) :
    ∃ rest s journal, p.Reaches ctx ops l ws rest s journal ∧
      ((∃ op rest', rest = op :: rest' ∧ ctx.err s.line = none ∧
          e ∈ (p.round ctx op s).written) ∨
        ∃ reason, ctx.err s.line = some reason ∧
          e = ⟨s.line, .logged (.doneBeforeAttempt s.attempts reason)⟩) := by
  obtain ⟨rest, s, journal, r, hreach, hlast, hrun⟩ := p.exists_last ctx ops l ws
  rw [hrun] at he
  rcases List.mem_append.mp he with he | he
  · obtain ⟨op, rest', s', journal', h, hlive, hmem⟩ := hreach.of_mem he
    exact ⟨_, _, _, h, Or.inl ⟨op, rest', rfl, hlive, hmem⟩⟩
  · cases hlast with
    | abandoned hdone =>
      refine ⟨_, _, _, hreach, Or.inr ⟨_, hdone, ?_⟩⟩
      simpa [abandonBefore, Entry.allAt] using he
    | starved hlive => cases he
    | stopped hlive hround =>
      exact ⟨_, _, _, hreach, Or.inl ⟨_, _, rfl, hlive, by rw [hround]; exact he⟩⟩

theorem Reaches.mem_run {op : Operation η ε α} {e : Entry η ε α}
    (h : p.Reaches ctx ops l ws (op :: rest) s journal) (hlive : ctx.err s.line = none)
    (he : e ∈ (p.round ctx op s).written) : e ∈ (p.run ctx ops l ws).journal := by
  rw [h.run_eq]
  refine List.mem_append_right _ ?_
  simp only [runFrom, hlive]
  cases hround : p.round ctx op s with
  | stop status more line words =>
    rw [hround] at he
    exact he
  | again more s' =>
    rw [hround] at he
    exact List.mem_append_left _ he

/-- In a run of `ops`, attempt `number` was made with `op`, under `own`, from `start` on. -/
structure Made (ops : List (Operation η ε α)) (journal : List (Entry η ε α)) (number : Nat)
    (op : Operation η ε α) (own : Context) (start : Timeline) : Prop where
  op_eq : ∃ i, number = i + 1 ∧ ops[i]? = some op
  invoked : ∃ err, ⟨start, .invoked number own err⟩ ∈ journal

/-- Attempts are made from reached states, and from each that is not the end one is made. -/
theorem made_iff {number : Nat} {op : Operation η ε α} {own : Context} {start : Timeline} :
    Made ops (p.run ctx ops l ws).journal number op own start ↔
      ∃ rest s journal, p.Reaches ctx ops l ws (op :: rest) s journal ∧ ctx.err s.line = none ∧
        number = s.attempts + 1 ∧ p.attemptContext ctx s.line = (own, start) := by
  constructor
  · rintro ⟨⟨i, rfl, hop⟩, err, hmem⟩
    obtain ⟨rest, s, journal, hreach, hround | ⟨reason, -, hlog⟩⟩ := of_mem_run hmem
    · obtain ⟨op', rest', rfl, hlive, hmem⟩ := hround
      obtain ⟨hnumber, hown, -⟩ := (p.turn_round ctx op' s).invoked_mem_iff.mp hmem
      obtain ⟨before, rfl, hlen⟩ := hreach.tried_eq
      obtain rfl : i = before.length := by omega
      obtain rfl : op' = op := by simpa using hop
      exact ⟨rest', s, journal, hreach, hlive, hnumber, hown⟩
    · cases hlog
  · rintro ⟨rest, s, journal, hreach, hlive, rfl, hown⟩
    obtain ⟨before, rfl, hlen⟩ := hreach.tried_eq
    refine ⟨⟨s.attempts, rfl, by simp [← hlen]⟩, own.err start, hreach.mem_run hlive ?_⟩
    exact (p.turn_round ctx op s).invoked_mem_iff.mpr ⟨rfl, hown, rfl⟩

/-- Every attempt of a run is made with one of its operations. -/
theorem exists_made {number : Nat} {own : Context} {start : Timeline} {err : Option Reason}
    (h : ⟨start, .invoked number own err⟩ ∈ (p.run ctx ops l ws).journal) :
    ∃ op, Made ops (p.run ctx ops l ws).journal number op own start := by
  obtain ⟨rest, s, journal, hreach, ⟨op, rest', rfl, hlive, hmem⟩ | ⟨reason, -, hlog⟩⟩ :=
    of_mem_run h
  · obtain ⟨hnumber, hown, -⟩ := (p.turn_round ctx op s).invoked_mem_iff.mp hmem
    exact ⟨op, made_iff.mpr ⟨rest', s, journal, hreach, hlive, hnumber, hown⟩⟩
  · cases hlog

/-- A policy for operations that fail with nothing but reasons, each judged by its capabilities. -/
def ofReasons (maxAttempts : Nat) (mode : Mode) (attemptTimeout : Option Nat) : Policy Reason where
  maxAttempts := maxAttempts
  mode := mode
  attemptTimeout := attemptTimeout
  backoff := .standard
  jitter := .none
  classifier _ reason := reason.capabilities.verdict?.getD (.permanent "")
  earlyReturn := none
  delayHint := none
  sleeper := .timer

end Policy

end Retry
