import Retry.Proofs.Pacing
import Retry.Proofs.Results

namespace Retry

def Outcome.mapError {ε γ α : Type} (g : ε → γ) : Outcome ε α → Outcome γ α
  | success v n => success v n
  | failure e n t => failure (g e) n t

def Policy.Status.mapError {ε γ α : Type} (g : ε → γ) : Policy.Status ε α → Policy.Status γ α
  | returned o => returned (o.mapError g)
  | stuck => stuck
  | starved => starved

/-- The attempts without a result that a run is left in. -/
def Policy.Status.pending {ε α : Type} : Policy.Status ε α → Nat
  | stuck => 1
  | returned _ | starved => 0

theorem Policy.Status.pending_mapError {ε γ α : Type} (g : ε → γ) (status : Policy.Status ε α) :
    (status.mapError g).pending = status.pending := by
  cases status <;> rfl

namespace Rule

variable {ε γ α β : Type} {rule : Rule ε} {g : ε → γ} {made made' : List (Except ε α)}
  {r r' : Except ε α}

/-- A rule makes the same of errors of which `g` makes the same. -/
structure Blind (rule : Rule ε) (g : ε → γ) : Prop where
  classify : ∀ e e', g e' = g e → rule.classify e' = rule.classify e
  stops : ∀ e e', g e' = g e → rule.stops e' = rule.stops e

/-- The verdicts on these results; an error that stops a run at once has none. -/
def verdicts (rule : Rule ε) (made : List (Except ε α)) : List Verdict :=
  made.filterMap fun
    | .ok _ => none
    | .error e => if rule.stops e then none else some (rule.classify e)

theorem verdicts_append (rule : Rule ε) (made later : List (Except ε α)) :
    rule.verdicts (made ++ later) = rule.verdicts made ++ rule.verdicts later :=
  List.filterMap_append

/-- Results that are alike are the same value or errors that are alike. -/
theorem eq_or_errors_of_mapError (h : r'.mapError g = r.mapError g) :
    r' = r ∨ ∃ e e', r = .error e ∧ r' = .error e' ∧ g e' = g e := by
  cases r with
  | ok v =>
    cases r' with
    | ok v' => exact Or.inl (congrArg Except.ok (Except.ok.inj h))
    | error e' => cases h
  | error e =>
    cases r' with
    | ok v' => cases h
    | error e' => exact Or.inr ⟨e, e', rfl, rfl, Except.error.inj h⟩

theorem filterMap_eq_of_map {f : Except ε α → Option β}
    (hf : ∀ e e', g e' = g e → f (.error e') = f (.error e))
    (h : made'.map (Except.mapError g) = made.map (Except.mapError g)) :
    made'.filterMap f = made.filterMap f := by
  induction made generalizing made' with
  | nil => rw [List.map_eq_nil_iff.mp h]
  | cons r made ih =>
    obtain ⟨r', made', rfl, hr, hmade⟩ := List.map_eq_cons_iff.mp h
    have hfirst : f r' = f r := by
      rcases eq_or_errors_of_mapError hr with rfl | ⟨e, e', rfl, rfl, he⟩
      · rfl
      · exact hf e e' he
    rw [List.filterMap_cons, List.filterMap_cons, hfirst, ih hmade]

theorem Blind.history (hblind : rule.Blind g)
    (h : made'.map (Except.mapError g) = made.map (Except.mapError g)) :
    rule.history made' = rule.history made :=
  filterMap_eq_of_map (fun e e' he => by simp only [hblind.classify e e' he]) h

theorem Blind.verdicts (hblind : rule.Blind g)
    (h : made'.map (Except.mapError g) = made.map (Except.mapError g)) :
    rule.verdicts made' = rule.verdicts made :=
  filterMap_eq_of_map
    (fun e e' he => by simp only [hblind.classify e e' he, hblind.stops e e' he]) h

theorem Blind.outcome (hblind : rule.Blind g) (hr : r'.mapError g = r.mapError g) (k : Nat) :
    (rule.outcome k r').mapError g = (rule.outcome k r).mapError g := by
  rcases eq_or_errors_of_mapError hr with rfl | ⟨e, e', rfl, rfl, he⟩
  · rfl
  · simp only [Rule.outcome, termination, Outcome.mapError, hblind.classify e e' he,
      hblind.stops e e' he, he]

theorem exists_getLast?_of_map (h : made'.map (Except.mapError g) = made.map (Except.mapError g))
    (hr : made.getLast? = some r) :
    ∃ r', made'.getLast? = some r' ∧ r'.mapError g = r.mapError g := by
  have hlast := congrArg List.getLast? h
  rw [List.getLast?_map, List.getLast?_map, hr, Option.map_some] at hlast
  exact Option.map_eq_some_iff.mp hlast

theorem Blind.ends (hblind : rule.Blind g)
    (h : made'.map (Except.mapError g) = made.map (Except.mapError g)) (hends : rule.Ends made) :
    rule.Ends made' := by
  obtain ⟨r, hlast, hfinal⟩ := hends
  obtain ⟨r', hlast', hr⟩ := exists_getLast?_of_map h hlast
  refine ⟨r', hlast', ?_⟩
  rw [hblind.history h]
  rcases eq_or_errors_of_mapError hr with rfl | ⟨e, e', rfl, rfl, he⟩
  · exact hfinal
  · rw [Final, hblind.stops e e' he]
    exact hfinal

end Rule

namespace Policy

variable {η ε γ α : Type} {g : ε → γ} {rule : Rule ε} {ctx : Context}
  {ops ops' : List (Operation η ε α)} {run run' : Report η ε α} {made made' : List (Except ε α)}

/-- By themselves two operations come to the same, but for errors of which `g` makes the same,
whenever each of them is tried. -/
def Likewise (ctx : Context) (g : ε → γ) (op op' : Operation η ε α) : Prop :=
  ∀ l l', ((op' ctx).alone l').map (fun q => q.1.mapError g) =
    ((op ctx).alone l).map fun q => q.1.mapError g

theorem forall₂_symm (h : List.Forall₂ (Likewise ctx g) ops ops') :
    List.Forall₂ (Likewise ctx g) ops' ops := by
  refine List.Forall₂.flip (h.imp fun op op' hlike => ?_)
  exact fun l l' => (hlike l' l).symm

theorem ComesTo.lt_length {journal : List (Entry η ε α)} {i : Nat} {r : Option (Except ε α)}
    (h : ComesTo ctx ops journal (i + 1) r) : i < ops.length := by
  obtain ⟨op, start, ⟨⟨j, hj, hop⟩, -⟩, -⟩ := h
  obtain rfl := Nat.succ.inj hj
  exact (List.getElem?_eq_some_iff.mp hop).1

/-- Attempts of one number come to alike results. -/
theorem ComesTo.likewise {journal journal' : List (Entry η ε α)} {i : Nat}
    {r r' : Option (Except ε α)} (hops : List.Forall₂ (Likewise ctx g) ops ops')
    (h : ComesTo ctx ops journal (i + 1) r) (h' : ComesTo ctx ops' journal' (i + 1) r') :
    r'.map (Except.mapError g) = r.map (Except.mapError g) := by
  obtain ⟨op, start, ⟨⟨j, hj, hop⟩, -⟩, rfl⟩ := h
  obtain ⟨op', start', ⟨⟨j', hj', hop'⟩, -⟩, rfl⟩ := h'
  obtain rfl := Nat.succ.inj hj
  obtain rfl := Nat.succ.inj hj'
  obtain ⟨hi, rfl⟩ := List.getElem?_eq_some_iff.mp hop
  obtain ⟨hi', rfl⟩ := List.getElem?_eq_some_iff.mp hop'
  rw [Option.map_map, Option.map_map]
  exact (List.forall₂_iff_get.mp hops).2 i hi hi' start start'

/-- As far as both have come, two runs have come to alike results. -/
theorem map_take_eq (hops : List.Forall₂ (Likewise ctx g) ops ops')
    (hcome : AllCome ctx ops run.journal made) (hcome' : AllCome ctx ops' run'.journal made')
    {k : Nat} (hk : k ≤ made.length) (hk' : k ≤ made'.length) :
    (made'.take k).map (Except.mapError g) = (made.take k).map (Except.mapError g) := by
  refine List.ext_getElem (by simp only [List.length_map, List.length_take]; omega) ?_
  intro i hi hi'
  simp only [List.length_map, List.length_take] at hi hi'
  have hmade : made[i]? = some made[i] := List.getElem?_eq_getElem (by omega)
  have hmade' : made'[i]? = some made'[i] := List.getElem?_eq_getElem (by omega)
  have hboth := (hcome i _ hmade).likewise hops (hcome' i _ hmade')
  simpa only [List.getElem_map, List.getElem_take, Option.map_some, Option.some.injEq] using hboth

theorem StopsBy.onward (h : StopsBy rule ctx ops run made) {k : Nat} (hk : k < made.length) :
    ¬ rule.Ends (made.take k) := by
  cases h with
  | @ends made r hfirst hends hstatus =>
    rw [List.length_append, List.length_singleton] at hk
    rw [List.take_append_of_le_length (Nat.le_of_lt_succ hk)]
    exact hfirst _ (List.take_prefix k made)
  | starves hnone | sticks hnone => exact hnone _ (List.take_prefix k made)

theorem StopsBy.returned (h : StopsBy rule ctx ops run made) (hends : rule.Ends made) :
    ∃ r, made.getLast? = some r ∧ run.status = .returned (rule.outcome made.length r) := by
  cases h with
  | @ends made r hfirst hends hstatus =>
    refine ⟨r, List.getLast?_concat, ?_⟩
    rw [hstatus, List.length_append, List.length_singleton]
  | starves hnone | sticks hnone => exact absurd hends (hnone _ (List.prefix_refl made))

theorem StopsBy.starved (h : StopsBy rule ctx ops run made) (hnot : ¬ rule.Ends made)
    (hall : made.length = ops.length) : run.status = .starved := by
  cases h with
  | ends _ hends => exact absurd hends hnot
  | starves _ _ hstatus => exact hstatus
  | sticks _ hnext => exact absurd hnext.lt_length (by omega)

theorem StopsBy.stuck (h : StopsBy rule ctx ops run made) (hnot : ¬ rule.Ends made)
    (hleft : made.length ≠ ops.length) :
    run.status = .stuck ∧ ComesTo ctx ops run.journal (made.length + 1) none := by
  cases h with
  | ends _ hends => exact absurd hends hnot
  | starves _ hall => exact absurd hall hleft
  | sticks _ hnext hstatus => exact ⟨hstatus, hnext⟩

/-- Of two runs whose attempts come to alike results, neither makes more of them. -/
theorem StopsBy.length_le (hblind : rule.Blind g) (hops : List.Forall₂ (Likewise ctx g) ops ops')
    (hcome : AllCome ctx ops run.journal made) (hcome' : AllCome ctx ops' run'.journal made')
    (h : StopsBy rule ctx ops run made) (h' : StopsBy rule ctx ops' run' made') :
    made'.length ≤ made.length := by
  by_contra hle
  rw [Nat.not_le] at hle
  have hsame := map_take_eq hops hcome hcome' (Nat.le_refl _) (Nat.le_of_lt hle)
  rw [List.take_length] at hsame
  -- The longer run has a result where the shorter one has ended, starved, or got stuck.
  have hnext := hcome' made.length _ (List.getElem?_eq_getElem hle)
  by_cases hends : rule.Ends made
  · exact h'.onward hle (hblind.ends hsame hends)
  · by_cases hall : made.length = ops.length
    · have hlt := hnext.lt_length
      rw [← hops.length_eq, ← hall] at hlt
      exact Nat.lt_irrefl _ hlt
    · cases (h.stuck hends hall).2.likewise hops hnext

/-- Two runs whose attempts come to alike results stop alike. -/
theorem StopsBy.likewise (hblind : rule.Blind g) (hops : List.Forall₂ (Likewise ctx g) ops ops')
    (hcome : AllCome ctx ops run.journal made) (hcome' : AllCome ctx ops' run'.journal made')
    (h : StopsBy rule ctx ops run made) (h' : StopsBy rule ctx ops' run' made') :
    made'.map (Except.mapError g) = made.map (Except.mapError g) ∧
      run'.status.mapError g = run.status.mapError g := by
  have hlength : made'.length = made.length :=
    Nat.le_antisymm (h.length_le hblind hops hcome hcome' h')
      (h'.length_le hblind (forall₂_symm hops) hcome' hcome h)
  have hsame := map_take_eq hops hcome hcome' (Nat.le_refl _) (Nat.le_of_eq hlength.symm)
  rw [List.take_length, ← hlength, List.take_length] at hsame
  refine ⟨hsame, ?_⟩
  by_cases hends : rule.Ends made
  · obtain ⟨r, hlast, hstatus⟩ := h.returned hends
    obtain ⟨r', hlast', hstatus'⟩ := h'.returned (hblind.ends hsame hends)
    obtain ⟨r'', hlast'', hr⟩ := Rule.exists_getLast?_of_map hsame hlast
    obtain rfl := Option.some.inj (hlast'.symm.trans hlast'')
    rw [hstatus, hstatus', hlength]
    exact congrArg Status.returned (hblind.outcome hr _)
  · have hends' : ¬ rule.Ends made' := fun h => hends (hblind.ends hsame.symm h)
    by_cases hall : made.length = ops.length
    · rw [h.starved hends hall, h'.starved hends' (hlength.trans (hall.trans hops.length_eq))]
    · have hleft : made'.length ≠ ops'.length := by
        rw [hlength, ← hops.length_eq]
        exact hall
      rw [(h.stuck hends hall).1, (h'.stuck hends' hleft).1]

/-- Whatever a policy makes of an error, it has passed the verdict of its rule, or none if it stops at
once. -/
theorem Follows.verdicts {p : Policy ε} {view : Context.View} {number : Nat} {e : ε} {b : Budget}
    {ws : Words} {events : List (Event η ε α)} {d : Decision} (hp : p.Follows rule)
    (h : p.Decided view number e b ws events d) :
    events.filterMap Event.verdict? = rule.verdicts [(.error e : Except ε α)] := by
  rw [h.verdicts, hp.earlyReturn, hp.classifier]
  cases hstops : rule.stops e <;> simp [Rule.verdicts, hstops]

section Runs

variable [OfReason ε] {p : Policy ε} {op : Operation η ε α} {rest : List (Operation η ε α)}
  {l : Timeline} {ws : Words} {s : Loop} {journal : List (Entry η ε α)} {round : Round η ε α}

/-- A round that does not find the context done passes the verdict that the rule has on its result.
-/
theorem Turn.verdicts (hp : p.Follows rule) (h : p.Turn ctx op s round)
    (hafter : ctx.err (p.tried ctx op s).line = none) :
    Entry.pick Event.verdict? round.written =
      rule.verdicts (Entry.pick Event.result? round.written) := by
  rw [h.views.2]
  cases h with
  | stuck hr =>
    rw [hr]
    exact pick_verdict_tried p ctx op s
  | value hr =>
    rw [hr]
    exact pick_verdict_tried p ctx op s
  | lost hr hdone =>
    rw [hafter] at hdone
    cases hdone
  | stopped hr _ hd | again hr _ hd =>
    rw [hr, Round.written, Entry.pick_append, pick_verdict_tried, Entry.pick_allAt,
      hp.verdicts (decided_of_decision hd)]
    rfl
  | interrupted hr _ hd =>
    rw [hr, Round.written, Entry.pick_append, pick_verdict_tried, Entry.pick_append,
      Entry.pick_allAt, hp.verdicts (decided_of_decision hd)]
    exact List.append_nil _

/-- The attempts of a round that ends a run: the one that came to a result, or the one that does not
end. -/
theorem Turn.length_result {status : Status ε α} {more : List (Entry η ε α)} {line : Timeline}
    {words : Words} (h : p.Turn ctx op s (.stop status more line words)) :
    (p.tried ctx op s).result.toList.length + status.pending = 1 := by
  cases h with
  | stuck hr | value hr | lost hr | stopped hr | interrupted hr =>
    rw [hr]
    rfl

theorem Reaches.verdicts (hp : p.Follows rule) (h : p.Reaches ctx ops l ws rest s journal) :
    Entry.pick Event.verdict? journal = rule.verdicts (Entry.pick Event.result? journal) := by
  induction h with
  | start => rfl
  | @again op rest s s' journal more h hlive hround ih =>
    have hturn := turn_of_round hround
    have hafter : ctx.err (p.tried ctx op s).line = none := by
      cases hturn with
      | again _ hafter => exact hafter
    have hmore := hturn.verdicts hp hafter
    simp only [Round.written] at hmore
    rw [Entry.pick_append, Entry.pick_append, ih, hmore, rule.verdicts_append]

/-- The attempts and the verdicts of a run that ends with its context live are told by the results
that it makes, and by whether it is left in an attempt without one. -/
theorem told_run (hp : p.Follows rule) (hend : ctx.err (p.run ctx ops l ws).line = none) :
    let made := Entry.pick Event.result? (p.run ctx ops l ws).journal
    Entry.pick Event.invocation? (p.run ctx ops l ws).journal =
        List.range' 1 (made.length + (p.run ctx ops l ws).status.pending) ∧
      Entry.pick Event.verdict? (p.run ctx ops l ws).journal = rule.verdicts made := by
  obtain ⟨rest, s, journal, report, hreach, hlast, hrun⟩ := p.exists_last ctx ops l ws
  have hverdicts := hreach.verdicts hp
  have hinvocations := hreach.pick_invocation
  obtain ⟨errors, hresults, hlength⟩ := hreach.pick_result
  have hattempts : (Entry.pick Event.result? journal).length = s.attempts := by
    rw [hresults, List.length_map, hlength]
  cases hlast with
  | abandoned hdone =>
    rw [hrun] at hend
    rw [show ctx.err s.line = none from hend] at hdone
    cases hdone
  | starved =>
    simp only [hrun, Report.after, List.append_nil]
    exact ⟨hattempts ▸ hinvocations, hverdicts⟩
  | stopped hlive hround =>
    have hafter := hreach.live_tried hend
    have hturn := turn_of_round hround
    have hviews := hturn.views
    have hmore := hturn.verdicts hp hafter
    have hone := hturn.length_result
    simp only [Round.written] at hviews hmore
    simp only [hrun, Report.after, Entry.pick_append, List.length_append]
    refine ⟨?_, ?_⟩
    · rw [hinvocations, hviews.1, hviews.2, hattempts, Nat.add_assoc, hone, List.range'_1_concat,
        Nat.add_comm 1]
    · rw [hverdicts, hmore, rule.verdicts_append]

/-- Two policies that follow one rule stop alike on operations that come to the same but for errors
that the rule does not tell apart, whatever each of them waits, if neither run finds its context
done: after the same attempts, with the same verdicts, and with the same value or an error that is
alike. -/
theorem likewise_run {p' : Policy ε} (hblind : rule.Blind g) (hp : p.Follows rule)
    (hp' : p'.Follows rule) (htimeout : p.attemptTimeout = none)
    (htimeout' : p'.attemptTimeout = none) (hlimit : rule.limit ≤ Budget.greatest)
    (hops : List.Forall₂ (Likewise ctx g) ops ops') {l' : Timeline} {ws' : Words}
    (hend : ctx.err (p.run ctx ops l ws).line = none)
    (hend' : ctx.err (p'.run ctx ops' l' ws').line = none) :
    let run := p.run ctx ops l ws
    let run' := p'.run ctx ops' l' ws'
    run'.status.mapError g = run.status.mapError g ∧
    Entry.pick Event.invocation? run'.journal = Entry.pick Event.invocation? run.journal ∧
    Entry.pick Event.verdict? run'.journal = Entry.pick Event.verdict? run.journal ∧
    (Entry.pick Event.result? run'.journal).map (Except.mapError g) =
      (Entry.pick Event.result? run.journal).map (Except.mapError g) := by
  intro run run'
  obtain ⟨hcome, hstops⟩ := stopsBy_run hp htimeout hlimit hend
  obtain ⟨hcome', hstops'⟩ := stopsBy_run hp' htimeout' hlimit hend'
  obtain ⟨hresults, hstatus⟩ := hstops.likewise hblind hops hcome hcome' hstops'
  obtain ⟨hinvocations, hverdicts⟩ := told_run hp hend
  obtain ⟨hinvocations', hverdicts'⟩ := told_run hp' hend'
  have hlength := congrArg List.length hresults
  rw [List.length_map, List.length_map] at hlength
  have hpending := congrArg Status.pending hstatus
  rw [Status.pending_mapError, Status.pending_mapError] at hpending
  refine ⟨hstatus, ?_, ?_, hresults⟩
  · rw [hinvocations, hinvocations', hlength, hpending]
  · rw [hverdicts, hverdicts', hblind.verdicts hresults]

end Runs

end Policy

end Retry
