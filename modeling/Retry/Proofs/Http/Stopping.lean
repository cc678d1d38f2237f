import Mathlib.Data.List.Induction
import Retry.Http.Retrier.Run
import Retry.Proofs.Results
import Retry.Proofs.Settings

namespace Retry

theorem Http.Status.listed_of_isPermanent {s : Http.Status} (h : s.isPermanent = true) :
    s.listed? = some false := by
  have hdisjoint : ∀ code ∈ permanentCodes, transientCodes.contains code = false := by decide
  have htransient : s.isTransient = false := hdisjoint s.code (List.contains_iff_mem.mp h)
  rw [listed?, htransient, h]
  rfl

/-- A terminal fault is not of the network, a status that is one is on the list of those that are
not worth a retry, and a done context that is one was cancelled. -/
theorem HttpFault.kind_of_isTerminal {f : HttpFault} (h : f.isTerminal = true) :
    (∀ source, f ≠ .transport source) ∧
      (∀ rejection, f = .status rejection → rejection.status.listed? = some false) ∧
      ∀ reason, f = .context reason → reason = .cancelled := by
  refine ⟨?_, ?_, ?_⟩
  · rintro source rfl
    cases h
  · rintro rejection rfl
    exact Http.Status.listed_of_isPermanent h
  · rintro reason rfl
    exact of_decide_eq_true h

theorem Rule.stops_of_earlyReturn {ε α : Type} {rule : Rule ε} {k number : Nat} {r : Except ε α}
    {e : ε} (h : rule.outcome k r = .failure e number .earlyReturn) : rule.stops e = true := by
  cases r with
  | ok v => cases h
  | error e' =>
    simp only [outcome, Outcome.failure.injEq] at h
    obtain ⟨rfl, -, hearly⟩ := h
    unfold termination at hearly
    split at hearly
    · assumption
    · split at hearly <;> cases hearly

namespace Http.Retrier

def Setting.classifier? : Setting → Option (Context.View → HttpFault → Verdict)
  | .classify classifier => some classifier
  | _ => none

/-- The classifier of a retrier: the one that was set last, or that which faults have of their own. -/
def chosen (settings : List Setting) : Context.View → HttpFault → Verdict :=
  (settings.filterMap Setting.classifier?).getLast?.getD fun _ f => f.verdict

namespace Builder

theorem classifier_setAll (settings : List Setting) :
    (setAll {} settings).classifier = chosen settings := by
  induction settings using List.reverseRecOn with
  | nil => rfl
  | append_singleton settings setting ih =>
    simp only [setAll, List.foldl_append, List.foldl_cons, List.foldl_nil] at ih ⊢
    cases setting with
    | classify classifier => simp [set, chosen, Setting.classifier?]
    | policy | maxBytes | earlyReturn | unlisted =>
      simpa [set, chosen, Setting.classifier?] using ih

theorem earlyReturn_setAll {settings : List Setting} (h : ∀ stops, .earlyReturn stops ∉ settings) :
    (setAll {} settings).earlyReturn = none := by
  induction settings using List.reverseRecOn with
  | nil => rfl
  | append_singleton settings setting ih =>
    have hbefore := ih fun stops hmem => h stops (List.mem_append_left _ hmem)
    simp only [setAll, List.foldl_append, List.foldl_cons, List.foldl_nil] at hbefore ⊢
    cases setting with
    | earlyReturn stops => exact absurd (List.mem_append_right _ List.mem_cons_self) (h stops)
    | policy | maxBytes | classify | unlisted => exact hbefore

variable {b : Builder} {clock : Nat → WallTime} {r : Retrier}

/-- The policy of a retrier is built from the settings of every policy, with three put over them. -/
theorem get_of_build (h : b.build clock = .ok r) (knob : Policy.Knob) :
    r.policy.get knob = (b.base.setAll [.classify b.classifier, .earlyReturn b.stops,
      .delayHint fun n f => f.retryAfter? (clock n)]).get knob := by
  unfold build at h
  split at h
  · cases h
  · dsimp only at h
    split at h
    · next hbase =>
      cases h
      exact (Policy.Builder.build_eq_ok_iff.mp hbase).2 knob
    · cases h

/-- A retrier asks the classifier of its builder, and stops by the rule of that. -/
theorem policy_of_build (h : b.build clock = .ok r) :
    r.policy.classifier = b.classifier ∧ r.policy.earlyReturn = some b.stops :=
  ⟨get_of_build h .classifier, get_of_build h .earlyReturn⟩

/-- A retrier takes the delays that faults ask for, counted from what its clock shows. -/
theorem delayHint_of_build (h : b.build clock = .ok r) :
    r.policy.delayHint = some fun n f => f.retryAfter? (clock n) := get_of_build h .delayHint

/-- With another clock the builder builds the same retrier, but for the delays it takes. -/
theorem build_at (h : b.build clock = .ok r) (clock' : Nat → WallTime) : b.build clock' =
    .ok { r with policy :=
      { r.policy with delayHint := some fun n f => f.retryAfter? (clock' n) } } := by
  unfold build at h ⊢
  split at h
  · cases h
  · next hbytes =>
    rw [if_neg hbytes]
    dsimp only [Policy.Builder.setAll, List.foldl_cons, List.foldl_nil, Policy.Builder.set,
      Policy.Builder.build] at h ⊢
    split at h
    · next hbase =>
      cases h
      split at hbase
      · cases hbase
      · next hday =>
        cases hbase
        rw [if_neg hday]
    · cases h

end Builder

/-- The rule of a retrier without an early return of its own. -/
def rule (r : Retrier) (classify : HttpFault → Verdict) : Rule HttpFault where
  mode := r.policy.mode
  limit := r.policy.maxAttempts
  classify := classify
  stops f := f.isTerminal && !(classify f).retryable

theorem follows_rule {settings : List Setting} {clock : Nat → WallTime} {r : Retrier}
    {classify : HttpFault → Verdict} (hown : ∀ stops, .earlyReturn stops ∉ settings)
    (hbuild : (Builder.setAll {} settings).build clock = .ok r)
    (hpure : ∀ view f, chosen settings view f = classify f) : r.policy.Follows (r.rule classify) := by
  obtain ⟨hclassifier, hearly⟩ := Builder.policy_of_build hbuild
  rw [Builder.classifier_setAll] at hclassifier
  refine ⟨rfl, rfl, fun view f => ?_, fun view f => ?_⟩
  · rw [hclassifier]
    exact hpure view f
  · simp only [Policy.stopsEarly, hearly, Builder.stops, Builder.earlyReturn_setAll hown,
      Builder.classifier_setAll, hpure, rule]

variable {α : Type}

/-- Attempt `i` of a run, counted from zero, was made with exchange `i` under the caller's context,
and what the exchange would come to by itself is `result`; that is `none` if it never ends. -/
def ComesTo (r : Retrier) (ctx : Context) (expected : List Status) (decode : Decoder α)
    (exchanges : List Exchange) (journal : List (Entry Note HttpFault α)) (i : Nat)
    (result : Option (Except HttpFault α)) : Prop :=
  ∃ x start err, exchanges[i]? = some x ∧ ⟨start, .invoked (i + 1) ctx err⟩ ∈ journal ∧
    ((r.attempt expected decode (i + 1) x ctx).alone start).map (·.1) = result

theorem comesTo_of_operations {r : Retrier} {ctx : Context} {expected : List Status}
    {decode : Decoder α} {exchanges : List Exchange} {journal : List (Entry Note HttpFault α)}
    {i : Nat} {result : Option (Except HttpFault α)}
    (h : Policy.ComesTo ctx
      ((exchanges.zipIdx 1).map fun (x, number) => r.attempt expected decode number x)
      journal (i + 1) result) : r.ComesTo ctx expected decode exchanges journal i result := by
  obtain ⟨op, start, ⟨⟨j, hj, hop⟩, err, hmem⟩, halone⟩ := h
  obtain rfl := Nat.succ.inj hj
  rw [List.getElem?_map, List.getElem?_zipIdx, Option.map_map, Option.map_eq_some_iff] at hop
  obtain ⟨x, hx, rfl⟩ := hop
  refine ⟨x, start, err, hx, hmem, ?_⟩
  rw [Nat.add_comm i 1]
  exact halone

/-- Without an early return of its own, a retrier stops exactly with the first attempt that gives a
value, ends in a terminal fault that the classifier does not find worth a retry, or spends the
budget; if there is none, it wants another attempt or is in one that never ends. Stopping at once is
for such faults only, and so never for one of the network or of a status that no list holds. -/
theorem stops_at_first_final {settings : List Setting} {clock : Nat → WallTime} {r : Retrier}
    {classify : HttpFault → Verdict} (hown : ∀ stops, .earlyReturn stops ∉ settings)
    (hbuild : (Builder.setAll {} settings).build clock = .ok r)
    (hpure : ∀ view f, chosen settings view f = classify f)
    (htimeout : r.policy.attemptTimeout = none) (hlimit : r.policy.maxAttempts ≤ Budget.greatest)
    (ctx : Context) (expected : List Status) (decode : Decoder α) (exchanges : List Exchange)
    (l : Timeline) (ws : Words)
    (hrun : (r.run ctx expected decode exchanges l ws).Undisturbed ctx) :
    let run := r.run ctx expected decode exchanges l ws
    let rule := r.rule classify
    let made := Entry.pick Event.result? run.journal
    (∀ i result, made[i]? = some result →
      r.ComesTo ctx expected decode exchanges run.journal i (some result)) ∧
    (∀ o, run.status = .returned o → IsLeast {k | rule.Ends (made.take k)} made.length ∧
      ∃ result, made.getLast? = some result ∧ o = rule.outcome made.length result) ∧
    ((∀ o, run.status ≠ .returned o) → (∀ k, ¬ rule.Ends (made.take k)) ∧
      (run.status = .starved ∧ made.length = exchanges.length ∨ run.status = .stuck ∧
        r.ComesTo ctx expected decode exchanges run.journal made.length none)) ∧
    ∀ f k, run.status = .returned (.failure f k .earlyReturn) →
      (classify f).retryable = false ∧ f.isTerminal = true ∧ (∀ source, f ≠ .transport source) ∧
        (∀ rejection, f = .status rejection → rejection.status.listed? = some false) ∧
        ∀ reason, f = .context reason → reason = .cancelled := by
  intro run rule made
  obtain ⟨hcome, hstops⟩ :=
    Policy.stopsBy_run (follows_rule hown hbuild hpure) htimeout hlimit hrun.2
  refine ⟨fun i result hi => comesTo_of_operations (hcome i result hi), fun o ho => hstops.isLeast ho,
    fun hnot => ?_, fun f k hstatus => ?_⟩
  · obtain ⟨hnone, ⟨hstarved, hall⟩ | ⟨hstuck, hnext⟩⟩ := hstops.none_ends hnot
    · rw [List.length_map, List.length_zipIdx] at hall
      exact ⟨hnone, Or.inl ⟨hstarved, hall⟩⟩
    · exact ⟨hnone, Or.inr ⟨hstuck, comesTo_of_operations hnext⟩⟩
  · obtain ⟨-, result, -, houtcome⟩ := hstops.isLeast hstatus
    have hstop : (f.isTerminal && !(classify f).retryable) = true :=
      Rule.stops_of_earlyReturn houtcome.symm
    obtain ⟨hterminal, hretry⟩ := Bool.and_eq_true_iff.mp hstop
    exact ⟨Bool.not_eq_eq_eq_not.mp hretry, hterminal, HttpFault.kind_of_isTerminal hterminal⟩

/-- As faults say of themselves, but what does not decode is worth a retry too. -/
private def lenient : HttpFault → Verdict
  | .decode _ => .transient "decode failed"
  | f => f.verdict

private def forgiving : Retrier where
  policy := {
    maxAttempts := 3
    mode := .standard
    attemptTimeout := none
    backoff := .standard
    jitter := .none
    classifier := fun _ f => lenient f
    earlyReturn := some fun _ f => f.isTerminal && !(lenient f).retryable
    delayHint := some fun _ f => f.retryAfter? ⟨0, 0⟩
    sleeper := .timer }
  maxBytes := standardMaxBytes
  unlisted _ := false

private def answered (code : Nat) : Exchange where
  build _ := .ok ⟨"GET", "http://host/", .empty, []⟩
  send _ := .succeed ⟨⟨code⟩, .empty, []⟩

private def undecodable : Decoder Nat := fun _ _ => .error .json

/-- A body that does not decode is worth a retry here, and a code that no list holds does not stop
the run; the third failure does so at once, although the budget is spent with it. -/
theorem stops_at_first_final_not_found :
    let settings : List Setting :=
      [.classify fun _ f => lenient f, .unlisted fun _ => false, .policy (.maxAttempts 3)]
    let ctx : Context := { token := .root 0, deadline := some (Duration.ofSecs 60) }
    let run :=
      forgiving.run ctx [⟨200⟩] undecodable ([200, 500, 404, 200].map answered) {} []
    (Builder.setAll {} settings).build (fun _ => ⟨0, 0⟩) = .ok forgiving ∧ run.Undisturbed ctx ∧
      IsLeast {k | (forgiving.rule lenient).Ends ((Entry.pick Event.result? run.journal).take k)} 3 ∧
      run.status = .returned (.failure (.status ⟨⟨404⟩, false, .empty, []⟩) 3 .earlyReturn) := by
  intro settings ctx run
  have hbuild : (Builder.setAll {} settings).build (fun _ => ⟨0, 0⟩) = .ok forgiving := rfl
  have hown : ∀ stops, .earlyReturn stops ∉ settings := by
    intro stops
    simp [settings]
  have hrun : run.Undisturbed ctx := by
    unfold Policy.Report.Undisturbed
    decide +kernel
  have hstatus : run.status =
      .returned (.failure (.status ⟨⟨404⟩, false, .empty, []⟩) 3 .earlyReturn) := by
    decide +kernel
  obtain ⟨-, hends, -, -⟩ := stops_at_first_final hown hbuild (fun _ _ => rfl) rfl (by decide) ctx
    [⟨200⟩] undecodable _ {} [] hrun
  have hlength : (Entry.pick Event.result? run.journal).length = 3 := by decide +kernel
  exact ⟨hbuild, hrun, hlength ▸ (hends _ hstatus).1, hstatus⟩

end Http.Retrier

end Retry
