import Mathlib.Data.ENat.Basic
import Retry.Proofs.Reached

namespace Retry

/-- The modes in their order: a failure that one of them lets pass is not counted by later ones. -/
def Mode.lenience : Mode → Nat
  | allErrors => 0
  | permanentOnly => 1
  | permanentStreak => 2

namespace Budget

variable {mode mode' : Mode} {limit limit' counted counted' : Nat} {b b' c : Budget}
  {retryable : Bool}

theorem count_permanent (mode : Mode) (counted : Nat) :
    count mode false counted = min (counted + 1) greatest := by
  cases mode <;> rfl

theorem count_le_greatest (mode : Mode) (retryable : Bool) (h : counted ≤ greatest) :
    count mode retryable counted ≤ greatest := by
  cases mode <;> cases retryable <;> simp [count, h]

/-- The more lenient mode, with the smaller count before, has the smaller count after. -/
theorem count_le_count (hmode : mode.lenience ≤ mode'.lenience) (h : counted' ≤ counted)
    (hbound : counted ≤ greatest) (retryable : Bool) :
    count mode' retryable counted' ≤ count mode retryable counted := by
  cases retryable with
  | false =>
    rw [count_permanent, count_permanent]
    omega
  | true =>
    cases mode' with
    | permanentStreak => exact Nat.zero_le _
    | permanentOnly =>
      cases mode with
      | allErrors =>
        simp only [count]
        omega
      | permanentOnly => exact h
      | permanentStreak => exact absurd hmode (by decide)
    | allErrors =>
      cases mode with
      | allErrors =>
        simp only [count]
        omega
      | permanentOnly | permanentStreak => exact absurd hmode (by decide)

/-- `b'` has counted no more than `b`, which has not passed the bound of counters. -/
structure Trails (b' b : Budget) : Prop where
  le : b'.counted ≤ b.counted
  bound : b.counted ≤ greatest

theorem trails_fresh : Trails {} {} := ⟨Nat.le_refl 0, Nat.zero_le _⟩

/-- Where a budget allows another attempt, a more lenient one that has counted no more does too. -/
theorem Trails.record (h : b'.Trails b) (hmode : mode.lenience ≤ mode'.lenience)
    (hlimit : limit' = 0 ∨ limit ≠ 0 ∧ limit ≤ limit')
    (hrecord : b.record mode limit retryable = (c, .goOn)) :
    ∃ c', b'.record mode' limit' retryable = (c', .goOn) ∧ c'.Trails c := by
  obtain ⟨rfl, hrule⟩ := Prod.mk.inj hrecord
  have hle := count_le_count hmode h.le h.bound retryable
  refine ⟨_, Prod.ext rfl ?_, hle, count_le_greatest mode retryable h.bound⟩
  show rule limit' (count mode' retryable b'.counted) = .goOn
  cases hrule' : rule limit' (count mode' retryable b'.counted) with
  | goOn => rfl
  | exhausted =>
    obtain ⟨hzero, hreached⟩ := rule_eq_exhausted_iff.mp hrule'
    obtain ⟨hlimited, hsmaller⟩ := hlimit.resolve_left hzero
    have hspent : rule limit (count mode retryable b.counted) = .exhausted :=
      rule_eq_exhausted_iff.mpr ⟨hlimited, by omega⟩
    rw [hspent] at hrule
    cases hrule

end Budget

namespace Policy

variable {η ε α : Type}

/-- The policy with another budget. -/
def allowing (p : Policy ε) (mode : Mode) (limit : Nat) : Policy ε :=
  { p with mode, maxAttempts := limit }

/-- The attempt at which a run stopped; one that does not stop counts as infinite. -/
def Report.stop (r : Report η ε α) : ℕ∞ :=
  match r.status with
  | .returned o => o.attempts
  | .stuck => ⊤
  | .starved => ⊤

/-- How a run goes beside another one under a stricter budget: in the same way, or on from where the
budget stopped the other. -/
inductive Outlasts : Report η ε α → Report η ε α → Prop where
  | alike (r : Report η ε α) : Outlasts r r
  | onward {r r' : Report η ε α} {e : ε} {number : Nat} {t : Termination}
      (hstatus : r.status = .returned (.failure e number t))
      (ht : t = .exhausted ∨ t = .nonRetryable) (hstop : number ≤ r'.stop)
      (hresults : Entry.pick Event.result? r.journal <+: Entry.pick Event.result? r'.journal) :
      Outlasts r r'

theorem Outlasts.after {r r' : Report η ε α} (h : Outlasts r r') (journal : List (Entry η ε α)) :
    Outlasts (r.after journal) (r'.after journal) := by
  cases h with
  | alike => exact .alike _
  | onward hstatus ht hstop hresults =>
    refine .onward hstatus ht hstop ?_
    simp only [Report.after, Entry.pick_append]
    exact (List.prefix_append_right_inj _).mpr hresults

variable {p : Policy ε} {mode : Mode} {limit number : Nat} {view : Context.View} {e : ε}
  {b b' c : Budget} {ws words : Words} {events : List (Event η ε α)} {delay : Nat}

/-- A failure that a budget lets pass is met with the same wait under a more lenient one. -/
theorem Decided.allowing (h : p.Decided view number e b ws events (.retry c delay words))
    (hmode : p.mode.lenience ≤ mode.lenience)
    (hlimit : limit = 0 ∨ p.maxAttempts ≠ 0 ∧ p.maxAttempts ≤ limit) (hb : b'.Trails b) :
    ∃ c', (p.allowing mode limit).Decided view number e b' ws events (.retry c' delay words) ∧
      c'.Trails c := by
  cases h with
  | retry hgo hv hrecord hdelay =>
    obtain ⟨c', hrecord', hc⟩ := hb.record hmode hlimit hrecord
    exact ⟨c', .retry (p := p.allowing mode limit) hgo hv hrecord' hdelay, hc⟩

variable [OfReason ε] {ctx : Context} {op : Operation η ε α} {ops rest : List (Operation η ε α)}
  {s : Loop}

theorem succ_attempts_le_stop (p : Policy ε) (op : Operation η ε α) (hlive : ctx.err s.line = none)
    (hrest : ∀ s' : Loop, s'.attempts ≤ (p.runFrom ctx rest s').stop) :
    (s.attempts + 1 : ℕ) ≤ (p.runFrom ctx (op :: rest) s).stop := by
  have hturn := p.turn_round ctx op s
  simp only [runFrom, hlive]
  generalize p.round ctx op s = r at hturn
  cases hturn with
  | stuck => exact le_top
  | value | lost | stopped | interrupted => exact le_refl _
  | again => exact hrest _

/-- A run stops no sooner than where it stands. -/
theorem attempts_le_stop (p : Policy ε) (ctx : Context) (ops : List (Operation η ε α)) (s : Loop) :
    s.attempts ≤ (p.runFrom ctx ops s).stop := by
  induction ops generalizing s with
  | nil =>
    simp only [runFrom]
    cases ctx.err s.line with
    | some reason => exact le_refl _
    | none => exact le_top
  | cons op rest ih =>
    cases hlive : ctx.err s.line with
    | some reason =>
      simp only [runFrom, hlive]
      exact le_refl _
    | none => exact le_trans (by exact_mod_cast Nat.le_succ _) (p.succ_attempts_le_stop op hlive ih)

theorem result_prefix_runFrom (p : Policy ε) (op : Operation η ε α)
    (rest : List (Operation η ε α)) (hlive : ctx.err s.line = none) :
    (p.tried ctx op s).result.toList <+:
      Entry.pick Event.result? (p.runFrom ctx (op :: rest) s).journal := by
  have hviews := (p.turn_round ctx op s).views.2
  simp only [runFrom, hlive]
  cases hround : p.round ctx op s with
  | stop status journal line words =>
    rw [hround] at hviews
    exact hviews ▸ List.prefix_refl _
  | again journal s' =>
    rw [hround] at hviews
    simp only [Round.written] at hviews
    simp only [Report.after, Entry.pick_append, hviews]
    exact List.prefix_append _ _

/-- A round beside one from the same place under a stricter budget: both end the run alike, both go
on alike, or the stricter budget stops the other. -/
inductive Eased (p : Policy ε) (ctx : Context) (op : Operation η ε α) (s : Loop) :
    Round η ε α → Round η ε α → Prop where
  | stop (status : Status ε α) (journal : List (Entry η ε α)) (line : Timeline) (words : Words) :
      Eased p ctx op s (.stop status journal line words) (.stop status journal line words)
  | again (journal : List (Entry η ε α)) (s' : Loop) {b : Budget} (hb : b.Trails s'.budget) :
      Eased p ctx op s (.again journal s') (.again journal { s' with budget := b })
  | spent {e : ε} {t : Termination} {journal : List (Entry η ε α)} {line : Timeline} {words : Words}
      (ht : t = .exhausted ∨ t = .nonRetryable) (r' : Round η ε α) :
      Eased p ctx op s (.stop (.returned (.failure e (s.attempts + 1) t)) journal line words) r'

section Eased

variable (hmode : p.mode.lenience ≤ mode.lenience)
  (hlimit : limit = 0 ∨ p.maxAttempts ≠ 0 ∧ p.maxAttempts ≤ limit)

include hmode hlimit

/-- The attempt, the checks and the wait are the same under any budget. -/
theorem eased_round (ctx : Context) (op : Operation η ε α) (s : Loop) (hb : b.Trails s.budget) :
    p.Eased ctx op s (p.round ctx op s)
      ((p.allowing mode limit).round ctx op { s with budget := b }) := by
  have hturn := p.turn_round ctx op s
  have hround : ∀ {r : Round η ε α},
      (p.allowing mode limit).Turn ctx op { s with budget := b } r →
      (p.allowing mode limit).round ctx op { s with budget := b } = r := fun h => h.round_eq
  generalize p.round ctx op s = r at hturn
  cases hturn with
  | stuck hr =>
    rw [hround (.stuck hr)]
    exact .stop _ _ _ _
  | value hr =>
    rw [hround (.value hr)]
    exact .stop _ _ _ _
  | lost hr hdone =>
    rw [hround (.lost hr hdone)]
    exact .stop _ _ _ _
  | stopped hr hafter hd =>
    cases decided_of_decision hd with
    | early hstop =>
      rw [hround (.stopped hr hafter (decision_early (p := p.allowing mode limit) hstop _ _ _))]
      exact .stop _ _ _ _
    | @spent v =>
      refine .spent ?_ _
      cases v.retryable with
      | true => exact Or.inl rfl
      | false => exact Or.inr rfl
  | interrupted hr hafter hd hwait =>
    obtain ⟨c, hd', -⟩ := (decided_of_decision hd).allowing hmode hlimit hb
    rw [hround (.interrupted hr hafter hd'.decision_eq hwait)]
    exact .stop _ _ _ _
  | again hr hafter hd hwait =>
    obtain ⟨c, hd', hc⟩ := (decided_of_decision hd).allowing hmode hlimit hb
    rw [hround (.again hr hafter hd'.decision_eq hwait)]
    exact .again _ _ hc

/-- From one place on, with a more lenient budget that has counted no more, a run goes on longer. -/
theorem outlasts_runFrom (ctx : Context) (ops : List (Operation η ε α)) (s : Loop)
    (hb : b.Trails s.budget) :
    Outlasts (p.runFrom ctx ops s)
      ((p.allowing mode limit).runFrom ctx ops { s with budget := b }) := by
  induction ops generalizing s b with
  | nil =>
    simp only [runFrom]
    cases ctx.err s.line <;> exact .alike _
  | cons op rest ih =>
    cases hlive : ctx.err s.line with
    | some reason =>
      simp only [runFrom, hlive]
      exact .alike _
    | none =>
      have hstop := (p.allowing mode limit).succ_attempts_le_stop op
        (s := { s with budget := b }) hlive (attempts_le_stop _ ctx rest)
      have hresults := (p.allowing mode limit).result_prefix_runFrom op rest
        (s := { s with budget := b }) hlive
      have heased := eased_round hmode hlimit ctx op s hb
      generalize hround : p.round ctx op s = r at heased
      generalize hround' :
        (p.allowing mode limit).round ctx op { s with budget := b } = r' at heased
      cases heased with
      | stop status journal line words =>
        simp only [runFrom, hlive, hround, hround']
        exact .alike _
      | again journal s' hb' =>
        simp only [runFrom, hlive, hround, hround']
        exact (ih s' hb').after journal
      | @spent e _ _ _ _ ht =>
        have hviews := (turn_of_round hround).views.2
        simp only [Round.written] at hviews
        refine .onward (e := e) ?_ ht hstop ?_
        · simp only [runFrom, hlive, hround]
        · simp only [runFrom, hlive, hround, hviews] at hresults ⊢
          exact hresults

end Eased

/-- A more lenient budget ends a run no sooner. The run under it stops at no earlier attempt, and
comes to the same results as far as the other goes; a value ends both at the same attempt, and
altogether they are the same run unless the stricter budget stopped the other. -/
theorem lenient_run_outlasts (p : Policy ε) (mode : Mode) (limit : Nat)
    (hmode : p.mode.lenience ≤ mode.lenience)
    (hlimit : limit = 0 ∨ p.maxAttempts ≠ 0 ∧ p.maxAttempts ≤ limit) (ctx : Context)
    (ops : List (Operation η ε α)) (l : Timeline) (ws : Words) :
    let run := p.run ctx ops l ws
    let longer := (p.allowing mode limit).run ctx ops l ws
    run.stop ≤ longer.stop ∧
    Entry.pick Event.result? run.journal <+: Entry.pick Event.result? longer.journal ∧
    (∀ v number, run.status = .returned (.success v number) →
      longer.status = .returned (.success v number)) ∧
    ((∀ e number t, run.status = .returned (.failure e number t) →
      t ≠ .exhausted ∧ t ≠ .nonRetryable) → longer = run) := by
  intro run longer
  have houtlasts : Outlasts run longer :=
    outlasts_runFrom hmode hlimit ctx ops { line := l, words := ws } Budget.trails_fresh
  generalize run = r at houtlasts
  generalize longer = r' at houtlasts
  cases houtlasts with
  | alike => exact ⟨le_refl _, List.prefix_refl _, fun _ _ h => h, fun _ => rfl⟩
  | @onward _ e number t hstatus ht hstop hresults =>
    have hattempts : r.stop = number := by
      rw [Report.stop, hstatus]
      rfl
    refine ⟨hattempts ▸ hstop, hresults, fun v number h => ?_, fun hother => ?_⟩
    · rw [hstatus] at h
      cases h
    · obtain ⟨hexhausted, hpermanent⟩ := hother _ _ _ hstatus
      exact absurd ht (not_or.mpr ⟨hexhausted, hpermanent⟩)

/-- The same attempts under four budgets: all failures count, the permanent ones, those in a row;
and with room for three in a row the value is reached, as it then is without a limit. -/
theorem lenient_run_outlasts_thrice :
    let rs : List (Except Reason Nat) :=
      [.error .cancelled, .error .deadlineExceeded, .error .cancelled, .error .cancelled, .ok 7]
    let ops : List (Operation Empty Reason Nat) := rs.map fun r _ => .sleep 1500000 (.finish r)
    let ctx : Context := ⟨.root 0, none⟩
    let run := fun mode limit => (ofReasons limit mode none).run ctx ops {} []
    ((run .allErrors 2).status = .returned (.failure .deadlineExceeded 2 .exhausted) ∧
        (run .allErrors 2).stop ≤ (run .permanentOnly 2).stop) ∧
      ((run .permanentOnly 2).status = .returned (.failure .cancelled 3 .nonRetryable) ∧
        (run .permanentOnly 2).stop ≤ (run .permanentStreak 2).stop) ∧
      ((run .permanentStreak 2).status = .returned (.failure .cancelled 4 .nonRetryable) ∧
        (run .permanentStreak 2).stop ≤ (run .permanentStreak 3).stop) ∧
      (run .permanentStreak 3).status = .returned (.success 7 5) ∧
      (run .permanentStreak 0).status = .returned (.success 7 5) := by
  intro rs ops ctx run
  have hvalue : (run .permanentStreak 3).status = .returned (.success 7 5) := by decide +kernel
  refine ⟨⟨by decide +kernel, ?_⟩, ⟨by decide +kernel, ?_⟩, ⟨by decide +kernel, ?_⟩, hvalue, ?_⟩
  · exact (lenient_run_outlasts (ofReasons 2 .allErrors none) .permanentOnly 2 (by decide)
      (by decide) ctx ops {} []).1
  · exact (lenient_run_outlasts (ofReasons 2 .permanentOnly none) .permanentStreak 2 (by decide)
      (by decide) ctx ops {} []).1
  · exact (lenient_run_outlasts (ofReasons 2 .permanentStreak none) .permanentStreak 3 (by decide)
      (by decide) ctx ops {} []).1
  · exact (lenient_run_outlasts (ofReasons 3 .permanentStreak none) .permanentStreak 0 (by decide)
      (by decide) ctx ops {} []).2.2.1 7 5 hvalue

end Policy

end Retry
