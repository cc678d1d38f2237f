import Mathlib.Data.List.Forall2
import Mathlib.Order.Bounds.Basic
import Retry.Proofs.Reached
import Retry.Proofs.Tally
import Retry.Proofs.Task

namespace Retry

/-- What decides where a run stops: which failures count and up to which limit, what an error is
worth, and which errors stop at once. -/
structure Rule (ε : Type) where
  mode : Mode
  limit : Nat
  classify : ε → Verdict
  stops : ε → Bool

namespace Rule

variable {ε α : Type}

def history (rule : Rule ε) (made : List (Except ε α)) : List Bool :=
  made.filterMap fun
    | .ok _ => none
    | .error e => some (rule.classify e).retryable

/-- A result is the last one of a run, given the verdicts up to it. -/
def Final (rule : Rule ε) (history : List Bool) : Except ε α → Prop
  | .ok _ => True
  | .error e => rule.stops e = true ∨ rule.limit ≠ 0 ∧ rule.limit ≤ rule.mode.tally history

instance (rule : Rule ε) (history : List Bool) (r : Except ε α) :
    Decidable (rule.Final history r) :=
  match r with
  | .ok _ => isTrue trivial
  | .error _ => inferInstanceAs (Decidable (_ ∨ _))

/-- A run ends with the last of the results made so far. -/
def Ends (rule : Rule ε) (made : List (Except ε α)) : Prop :=
  ∃ r ∈ made.getLast?, rule.Final (rule.history made) r

instance (rule : Rule ε) (made : List (Except ε α)) : Decidable (rule.Ends made) :=
  inferInstanceAs (Decidable (∃ r ∈ made.getLast?, rule.Final (rule.history made) r))

/-- Why a run ends with an error; an early return goes before the budget. -/
def termination (rule : Rule ε) (e : ε) : Termination :=
  if rule.stops e then .earlyReturn
  else if (rule.classify e).retryable then .exhausted
  else .nonRetryable

def outcome (rule : Rule ε) (k : Nat) : Except ε α → Outcome ε α
  | .ok v => .success v k
  | .error e => .failure e k (rule.termination e)

theorem history_concat_error (rule : Rule ε) (made : List (Except ε α)) (e : ε) :
    rule.history (made ++ [.error e]) = rule.history made ++ [(rule.classify e).retryable] := by
  simp [history]

theorem ends_concat_ok (rule : Rule ε) (made : List (Except ε α)) (v : α) :
    rule.Ends (made ++ [.ok v]) := ⟨.ok v, List.getLast?_concat, trivial⟩

theorem ends_concat_error {rule : Rule ε} {made : List (Except ε α)} {e : ε} :
    rule.Ends (made ++ [.error e]) ↔ rule.stops e = true ∨
      rule.limit ≠ 0 ∧
        rule.limit ≤ rule.mode.tally (rule.history made ++ [(rule.classify e).retryable]) := by
  simp [Ends, Final, history_concat_error]

theorem not_ends_nil (rule : Rule ε) : ¬ rule.Ends ([] : List (Except ε α)) := by
  rintro ⟨r, hr, -⟩
  cases hr

end Rule

namespace Policy

variable {η ε α : Type}

/-- A policy that decides by a rule, whatever it sees of the context. -/
structure Follows (p : Policy ε) (rule : Rule ε) : Prop where
  mode : p.mode = rule.mode
  limit : p.maxAttempts = rule.limit
  classifier : ∀ view e, p.classifier view e = rule.classify e
  earlyReturn : ∀ view e, p.stopsEarly view e = rule.stops e

/-- Started and ended under a context that is not done, the operation gives `r`. -/
def Gives (ctx : Context) (op : Operation η ε α) (r : Except ε α) : Prop :=
  ∀ l, ctx.err l = none → ctx.err ((op ctx).play ctx l).line = none →
    ((op ctx).play ctx l).ending = .finished r

theorem gives_of_alone {ctx : Context} {op : Operation η ε α} {r : Except ε α}
    (h : ∀ l, ∃ l', (op ctx).alone l = some (r, l')) : Gives ctx op r := by
  intro l _ hafter
  obtain ⟨l', halone⟩ := h l
  have hwatched := (op ctx).watched_play ctx l
  rw [halone] at hwatched
  generalize ((op ctx).play ctx l).ending = ending at hwatched
  cases hwatched with
  | finished hr => rw [(Prod.mk.inj (Option.some.inj hr)).1]
  | cutOff hsignal _ =>
    have hdone := Context.err_of_signal hsignal
    rw [hafter] at hdone
    cases hdone
  | stuck hnone => cases hnone

/-- The context is done at no event of a run and not at its end. -/
def Report.Undisturbed (ctx : Context) (r : Report η ε α) : Prop :=
  (∀ e ∈ r.journal, ctx.err e.line = none) ∧ ctx.err r.line = none

variable [OfReason ε] {p : Policy ε} {rule : Rule ε} {ctx : Context}
  {ops rest : List (Operation η ε α)} {rs : List (Except ε α)} {l : Timeline} {ws : Words}
  {s : Loop} {journal : List (Entry η ε α)}

theorem result_of_gives (htimeout : p.attemptTimeout = none) {op : Operation η ε α}
    {r : Except ε α} (hgives : Gives ctx op r) (hlive : ctx.err s.line = none)
    (hafter : ctx.err (p.tried ctx op s).line = none) : (p.tried ctx op s).result = some r := by
  have hwatched : p.watched ctx op s.line = (op ctx).play ctx s.line := by
    simp only [watched, attemptContext, htimeout]
  rw [tried, err_attempt, hwatched] at hafter
  rw [tried, result_attempt, hwatched, hgives s.line hlive hafter]
  rfl

omit [OfReason ε] in
/-- What a policy records of an error is what its rule says of it. -/
theorem Follows.record_eq (hp : p.Follows rule) {view : Context.View} {e : ε} {v : Verdict}
    {b : Budget} {recorded : Budget × Budget.Ruling} (hv : p.classifier view e = v)
    (hrecord : b.record p.mode p.maxAttempts v.retryable = recorded) :
    b.record rule.mode rule.limit (rule.classify e).retryable = recorded := by
  rw [← hp.mode, ← hp.limit, ← hp.classifier view, hv]
  exact hrecord

/-- The results that a run has passed at a reached state: none has ended it, and all are counted. -/
structure Passed (rule : Rule ε) (s : Loop) (journal : List (Entry η ε α))
    (made : List (Except ε α)) : Prop where
  attempts : made.length = s.attempts
  results : Entry.pick Event.result? journal = made
  counts : s.budget.Counts rule.mode (rule.history made)
  onward : ∀ before, before <+: made → ¬ rule.Ends before

omit [OfReason ε] in
theorem passed_start (rule : Rule ε) (l : Timeline) (ws : Words) :
    Passed rule { line := l, words := ws } ([] : List (Entry η ε α)) [] where
  attempts := rfl
  results := rfl
  counts := Budget.counts_fresh rule.mode
  onward := by
    intro before hbefore
    rw [List.prefix_nil.mp hbefore]
    exact rule.not_ends_nil

theorem Passed.again {op : Operation η ε α} {made : List (Except ε α)} {s' : Loop}
    {more : List (Entry η ε α)} (hp : p.Follows rule) (hlimit : rule.limit ≤ Budget.greatest)
    (h : Passed rule s journal made) (hround : p.round ctx op s = .again more s') :
    ∃ e, (p.tried ctx op s).result = some (.error e) ∧
      ctx.err (p.tried ctx op s).line = none ∧
      Passed rule s' (journal ++ more) (made ++ [.error e]) := by
  have hviews := (turn_of_round hround).views.2
  cases turn_of_round hround with
  | @again e events b delay ws line hr hafter hd hb =>
    cases decided_of_decision hd with
    | retry hgo hv hrecord hdelay =>
      have hruled := hp.record_eq hv hrecord
      have hspent := Budget.exhausted_iff h.counts hlimit hruled
      refine ⟨e, hr, hafter, ?_, ?_, ?_, ?_⟩
      · rw [List.length_append, List.length_singleton, h.attempts]
      · rw [hr] at hviews
        rw [Entry.pick_append, h.results]
        exact congrArg _ hviews
      · rw [rule.history_concat_error]
        exact Budget.counts_record h.counts hruled
      · -- Going on means that neither the predicate nor the budget made this failure the last.
        intro before hbefore hends
        rcases List.prefix_concat_iff.mp hbefore with rfl | hbefore
        · rcases Rule.ends_concat_error.mp hends with hstops | hreached
          · rw [← hp.earlyReturn (ctx.view (p.tried ctx op s).line), hgo] at hstops
            cases hstops
          · cases hspent.mpr hreached
        · exact h.onward before hbefore hends

/-- The round that ends a run comes to a result by which the rule ends it, unless the attempt never
ends or the context is found done. -/
theorem Passed.stop {op : Operation η ε α} {made : List (Except ε α)} {status : Status ε α}
    {more : List (Entry η ε α)} {line : Timeline} {words : Words} (hp : p.Follows rule)
    (hlimit : rule.limit ≤ Budget.greatest) (h : Passed rule s journal made)
    (hround : p.round ctx op s = .stop status more line words) (hline : ctx.err line = none) :
    ctx.err (p.tried ctx op s).line = none ∧
      Entry.pick Event.result? more = (p.tried ctx op s).result.toList ∧
      ((p.tried ctx op s).result = none ∧ status = .stuck ∨
        ∃ r, (p.tried ctx op s).result = some r ∧ rule.Ends (made ++ [r]) ∧
          status = .returned (rule.outcome (made.length + 1) r)) := by
  have hviews := (turn_of_round hround).views.2
  cases turn_of_round hround with
  | stuck hr => exact ⟨hline, hviews, Or.inl ⟨hr, rfl⟩⟩
  | @value v hr =>
    exact ⟨hline, hviews, Or.inr ⟨_, hr, rule.ends_concat_ok made v, by rw [h.attempts]; rfl⟩⟩
  | lost hr hdone =>
    rw [hline] at hdone
    cases hdone
  | @stopped e events t hr hafter hd =>
    refine ⟨hafter, hviews, Or.inr ⟨_, hr, ?_⟩⟩
    have hearly := hp.earlyReturn (ctx.view (p.tried ctx op s).line) e
    cases decided_of_decision hd with
    | early hstop =>
      rw [hstop] at hearly
      refine ⟨Rule.ends_concat_error.mpr (Or.inl hearly.symm), ?_⟩
      simp [Rule.outcome, Rule.termination, ← hearly, h.attempts]
    | spent hgo hv hrecord =>
      have hspent := Budget.exhausted_iff h.counts hlimit (hp.record_eq hv hrecord)
      rw [hgo] at hearly
      refine ⟨Rule.ends_concat_error.mpr (Or.inr (hspent.mp rfl)), ?_⟩
      rw [hp.classifier] at hv
      simp [Rule.outcome, Rule.termination, ← hearly, hv, h.attempts]
  | interrupted hr hafter hd hb =>
    obtain ⟨hsignal, -⟩ := backOff_eq_some hb
    have hdone := Context.err_of_signal hsignal
    rw [hline] at hdone
    cases hdone

/-- What a run of given results has behind it at a reached state. -/
structure Behind (ctx : Context) (rule : Rule ε) (rs : List (Except ε α))
    (rest : List (Operation η ε α)) (s : Loop) (journal : List (Entry η ε α))
    (made later : List (Except ε α)) : Prop extends Passed rule s journal made where
  split : rs = made ++ later
  gives : List.Forall₂ (Gives ctx) rest later

omit [OfReason ε] in
theorem behind_start (hops : List.Forall₂ (Gives ctx) ops rs) :
    Behind ctx rule rs ops { line := l, words := ws } [] [] rs where
  toPassed := passed_start rule l ws
  split := rfl
  gives := hops

theorem Behind.next {op : Operation η ε α} {made later : List (Except ε α)}
    (htimeout : p.attemptTimeout = none)
    (h : Behind ctx rule rs (op :: rest) s journal made later) (hlive : ctx.err s.line = none)
    (hafter : ctx.err (p.tried ctx op s).line = none) :
    ∃ r later', later = r :: later' ∧ (p.tried ctx op s).result = some r ∧
      List.Forall₂ (Gives ctx) rest later' := by
  obtain ⟨r, later', hgives, hrest, hlater⟩ := List.forall₂_cons_left_iff.mp h.gives
  exact ⟨r, later', hlater, result_of_gives htimeout hgives hlive hafter, hrest⟩

theorem Behind.again {op : Operation η ε α} {made later : List (Except ε α)} {s' : Loop}
    {more : List (Entry η ε α)} (hp : p.Follows rule) (htimeout : p.attemptTimeout = none)
    (hlimit : rule.limit ≤ Budget.greatest)
    (h : Behind ctx rule rs (op :: rest) s journal made later) (hlive : ctx.err s.line = none)
    (hround : p.round ctx op s = .again more s') :
    ∃ e later', Behind ctx rule rs rest s' (journal ++ more) (made ++ [.error e]) later' := by
  obtain ⟨e, hr, hafter, hpassed⟩ := h.toPassed.again hp hlimit hround
  obtain ⟨r, later', hlater, hr', hrest⟩ := h.next htimeout hlive hafter
  obtain rfl : Except.error e = r := Option.some.inj (hr.symm.trans hr')
  refine ⟨e, later', hpassed, ?_, hrest⟩
  rw [h.split, hlater, List.append_assoc, List.singleton_append]

theorem Behind.stop {op : Operation η ε α} {made later : List (Except ε α)} {status : Status ε α}
    {more : List (Entry η ε α)} {line : Timeline} {words : Words} (hp : p.Follows rule)
    (htimeout : p.attemptTimeout = none) (hlimit : rule.limit ≤ Budget.greatest)
    (h : Behind ctx rule rs (op :: rest) s journal made later) (hlive : ctx.err s.line = none)
    (hround : p.round ctx op s = .stop status more line words) (hline : ctx.err line = none) :
    ∃ r later', later = r :: later' ∧ rule.Ends (made ++ [r]) ∧
      status = .returned (rule.outcome (made.length + 1) r) ∧
      Entry.pick Event.result? more = [r] := by
  obtain ⟨hafter, hmore, hstop⟩ := h.toPassed.stop hp hlimit hround hline
  obtain ⟨r, later', hlater, hr, -⟩ := h.next htimeout hlive hafter
  rw [hr] at hmore hstop
  rcases hstop with ⟨hnone, -⟩ | ⟨r', hr', hends, hstatus⟩
  · cases hnone
  · obtain rfl := Option.some.inj hr'
    exact ⟨_, later', hlater, hends, hstatus, hmore⟩

theorem Reaches.behind (hp : p.Follows rule) (htimeout : p.attemptTimeout = none)
    (hlimit : rule.limit ≤ Budget.greatest) (hops : List.Forall₂ (Gives ctx) ops rs)
    (h : p.Reaches ctx ops l ws rest s journal) :
    ∃ made later, Behind ctx rule rs rest s journal made later := by
  induction h with
  | start => exact ⟨[], rs, behind_start hops⟩
  | again h hlive hround ih =>
    obtain ⟨made, later, hbehind⟩ := ih
    obtain ⟨e, later', hbehind'⟩ := hbehind.again hp htimeout hlimit hlive hround
    exact ⟨_, _, hbehind'⟩

/-- An undisturbed run either tries all operations without coming to a result that ends it, or makes
results up to one that does. -/
theorem ends_or_starved (hp : p.Follows rule) (htimeout : p.attemptTimeout = none)
    (hlimit : rule.limit ≤ Budget.greatest) (hops : List.Forall₂ (Gives ctx) ops rs)
    (hrun : (p.run ctx ops l ws).Undisturbed ctx) :
    ((∀ made, made <+: rs → ¬ rule.Ends made) ∧ (p.run ctx ops l ws).status = .starved ∧
        Entry.pick Event.result? (p.run ctx ops l ws).journal = rs) ∨
      ∃ made r, made ++ [r] <+: rs ∧ (∀ before, before <+: made → ¬ rule.Ends before) ∧
        rule.Ends (made ++ [r]) ∧
        (p.run ctx ops l ws).status = .returned (rule.outcome (made.length + 1) r) ∧
        Entry.pick Event.result? (p.run ctx ops l ws).journal = made ++ [r] := by
  obtain ⟨rest, s, journal, report, hreach, hlast, heq⟩ := p.exists_last ctx ops l ws
  obtain ⟨made, later, hbehind⟩ := hreach.behind hp htimeout hlimit hops
  rw [heq] at hrun ⊢
  obtain ⟨-, hline⟩ := hrun
  cases hlast with
  | abandoned hdone =>
    have : ctx.err s.line = none := hline
    rw [this] at hdone
    cases hdone
  | starved hlive =>
    have hlater : later = [] := List.forall₂_nil_left_iff.mp hbehind.gives
    have hrs : rs = made := by rw [hbehind.split, hlater, List.append_nil]
    refine Or.inl ⟨hrs ▸ hbehind.onward, rfl, ?_⟩
    simp only [Report.after, List.append_nil, hbehind.results, hrs]
  | stopped hlive hround =>
    obtain ⟨r, later', hlater, hends, hstatus, hres⟩ :=
      hbehind.stop hp htimeout hlimit hlive hround hline
    refine Or.inr ⟨made, r, ?_, hbehind.onward, hends, hstatus, ?_⟩
    · exact ⟨later', by rw [hbehind.split, hlater, List.append_assoc, List.singleton_append]⟩
    · simp only [Report.after, Entry.pick_append, hbehind.results, hres]

/-- A run that nothing disturbs stops exactly at the first result that ends it by the rule, with the
outcome that the rule gives; if there is none, it wants another attempt after the last. -/
theorem run_stops_at_first_end (hp : p.Follows rule) (htimeout : p.attemptTimeout = none)
    (hlimit : rule.limit ≤ Budget.greatest) (hops : List.Forall₂ (Gives ctx) ops rs)
    (hrun : (p.run ctx ops l ws).Undisturbed ctx) :
    (∀ k, IsLeast {k | rule.Ends (rs.take k)} k →
      Entry.pick Event.result? (p.run ctx ops l ws).journal = rs.take k ∧
        ∃ r, rs[k - 1]? = some r ∧ (p.run ctx ops l ws).status = .returned (rule.outcome k r)) ∧
    ((∀ k, ¬ rule.Ends (rs.take k)) →
      Entry.pick Event.result? (p.run ctx ops l ws).journal = rs ∧
        (p.run ctx ops l ws).status = .starved) := by
  rcases ends_or_starved hp htimeout hlimit hops hrun with
    ⟨hnone, hstatus, hres⟩ | ⟨made, r, hmade, honward, hends, hstatus, hres⟩
  · refine ⟨fun k hk => ?_, fun _ => ⟨hres, hstatus⟩⟩
    exact absurd hk.1 (hnone _ (List.take_prefix k rs))
  · have htake : rs.take (made.length + 1) = made ++ [r] := by
      simpa using (List.prefix_iff_eq_take.mp hmade).symm
    have hleast : IsLeast {k | rule.Ends (rs.take k)} (made.length + 1) := by
      have hends' : rule.Ends (rs.take (made.length + 1)) := htake ▸ hends
      refine ⟨hends', fun k hk => ?_⟩
      by_contra hlt
      have hpre : made <+: rs := (List.prefix_append made [r]).trans hmade
      have hlen : (rs.take k).length ≤ made.length := by
        rw [List.length_take]
        omega
      exact honward _ (List.prefix_of_prefix_length_le (List.take_prefix k rs) hpre hlen) hk
    refine ⟨fun k hk => ?_, fun hnone => absurd hleast.1 (hnone _)⟩
    obtain rfl : k = made.length + 1 := hk.unique hleast
    refine ⟨htake ▸ hres, r, ?_, hstatus⟩
    obtain ⟨later, rfl⟩ := hmade
    simp

private def streakOfTwo : Rule Reason where
  mode := .permanentStreak
  limit := 2
  classify reason := reason.capabilities.verdict?.getD (.permanent "")
  stops _ := false

/-- A permanent failure is forgotten with the retryable one after it; the next two end the run, with
the value still to come. -/
theorem run_stops_at_second_of_streak :
    let rs : List (Except Reason Nat) :=
      [.error .cancelled, .error .deadlineExceeded, .error .cancelled, .error .cancelled, .ok 7]
    let ops : List (Operation Empty Reason Nat) := rs.map fun r _ => .sleep 1500000 (.finish r)
    let ctx : Context := { token := .root 0, deadline := some (Duration.ofSecs 60) }
    let patient : Policy Reason := { ofReasons 2 .permanentStreak none with jitter := .full }
    let run := patient.run ctx ops {} [5, 77]
    List.Forall₂ (Gives ctx) ops rs ∧ run.Undisturbed ctx ∧
      IsLeast {k | streakOfTwo.Ends (rs.take k)} 4 ∧
      Entry.pick Event.result? run.journal = rs.take 4 ∧
      run.status = .returned (.failure .cancelled 4 .nonRetryable) := by
  intro rs ops ctx patient run
  have hgives : List.Forall₂ (Gives ctx) ops rs := by
    refine List.forall₂_map_left_iff.mpr (List.forall₂_same.mpr fun r _ => ?_)
    exact gives_of_alone fun l => ⟨_, rfl⟩
  have hrun : run.Undisturbed ctx := by
    unfold Report.Undisturbed
    decide +kernel
  have hleast : IsLeast {k | streakOfTwo.Ends (rs.take k)} 4 := by
    have hbefore : ∀ k < 4, ¬ streakOfTwo.Ends (rs.take k) := by decide
    exact ⟨by decide, fun k hk => Nat.le_of_not_lt fun hlt => hbefore k hlt hk⟩
  have hfollows : patient.Follows streakOfTwo := ⟨rfl, rfl, fun _ _ => rfl, fun _ _ => rfl⟩
  obtain ⟨hres, r, hr, hstatus⟩ :=
    (run_stops_at_first_end hfollows rfl (by decide) hgives hrun).1 4 hleast
  obtain rfl : Except.error Reason.cancelled = r := Option.some.inj hr
  exact ⟨hgives, hrun, hleast, hres, hstatus⟩

end Policy

end Retry
