import Retry.Policy.Run
import Retry.Proofs.Journal

namespace Retry

namespace Policy

variable {η ε α : Type}

def stopsEarly (p : Policy ε) (view : Context.View) (e : ε) : Bool :=
  match p.earlyReturn with
  | some stops => stops view e
  | none => false

/-- What the early-return predicate leaves behind when it lets a run go on. -/
def passed (p : Policy ε) (e : ε) : List (Event η ε α) :=
  match p.earlyReturn with
  | some _ => [.asked e false]
  | none => []

def hintAsked (p : Policy ε) (number : Nat) (e : ε) : List (Event η ε α) :=
  match p.delayHint with
  | some hint => [.hinted number e (hint number e)]
  | none => []

/-- What a policy can make of a failure that it saw. -/
inductive Decided (p : Policy ε) (view : Context.View) (number : Nat) (e : ε) (b : Budget)
    (ws : Words) : List (Event η ε α) → Decision → Prop where
  | early (hstop : p.stopsEarly view e = true) :
      Decided p view number e b ws [.asked e true, .logged (.earlyReturn number)]
        (.stop .earlyReturn)
  | spent {v : Verdict} {b' : Budget} (hgo : p.stopsEarly view e = false)
      (hv : p.classifier view e = v)
      (hb : b.record p.mode p.maxAttempts v.retryable = (b', .exhausted)) :
      Decided p view number e b ws
        (p.passed e ++ [.judged e view.err v, .logged (.budgetExhausted number p.maxAttempts v)])
        (.stop (if v.retryable then .exhausted else .nonRetryable))
  | retry {v : Verdict} {b' : Budget} {delay used : Nat} (hgo : p.stopsEarly view e = false)
      (hv : p.classifier view e = v)
      (hb : b.record p.mode p.maxAttempts v.retryable = (b', .goOn))
      (hdelay : p.delayFor number e ws = (delay, used)) :
      Decided p view number e b ws
        (p.passed e ++ .judged e view.err v ::
          (p.hintAsked number e ++ [.logged (.retrying number v delay), .slept delay]))
        (.retry b' delay (ws.drop used))

theorem decision_early {p : Policy ε} {view : Context.View} {e : ε}
    (hstop : p.stopsEarly view e = true) (number : Nat) (b : Budget) (ws : Words) :
    p.decision (η := η) (α := α) view number e b ws =
      ([.asked e true, .logged (.earlyReturn number)], .stop .earlyReturn) := by
  cases hearly : p.earlyReturn with
  | none => simp [stopsEarly, hearly] at hstop
  | some stops =>
    simp only [stopsEarly, hearly] at hstop
    simp only [decision, hearly, hstop, if_true]

theorem decision_passed {p : Policy ε} {view : Context.View} {e : ε}
    (hgo : p.stopsEarly view e = false) (number : Nat) (b : Budget) (ws : Words) :
    p.decision (η := η) (α := α) view number e b ws =
      (p.passed e ++ (p.budgetDecision view number e b ws).1,
        (p.budgetDecision (η := η) (α := α) view number e b ws).2) := by
  cases hearly : p.earlyReturn with
  | none => simp only [decision, passed, hearly, List.nil_append]
  | some stops =>
    simp only [stopsEarly, hearly] at hgo
    simp only [decision, passed, hearly, hgo, Bool.false_eq_true, if_false, List.singleton_append]

theorem decided_of_decision {p : Policy ε} {view : Context.View} {number : Nat} {e : ε} {b : Budget}
    {ws : Words} {events : List (Event η ε α)} {d : Decision}
    (h : p.decision view number e b ws = (events, d)) : p.Decided view number e b ws events d := by
  cases hstop : p.stopsEarly view e with
  | true =>
    rw [decision_early hstop, Prod.mk.injEq] at h
    obtain ⟨rfl, rfl⟩ := h
    exact .early hstop
  | false =>
    rw [decision_passed hstop, Prod.mk.injEq] at h
    obtain ⟨rfl, rfl⟩ := h
    cases hb : b.record p.mode p.maxAttempts (p.classifier view e).retryable with
    | mk b' ruling =>
      cases ruling with
      | exhausted =>
        simp only [budgetDecision, hb]
        exact .spent hstop rfl hb
      | goOn =>
        simp only [budgetDecision, hb]
        exact .retry hstop rfl hb rfl

/-- The rules leave nothing open. -/
theorem Decided.decision_eq {p : Policy ε} {view : Context.View} {number : Nat} {e : ε} {b : Budget}
    {ws : Words} {events : List (Event η ε α)} {d : Decision}
    (h : p.Decided view number e b ws events d) : p.decision view number e b ws = (events, d) := by
  cases h with
  | early hstop => exact decision_early hstop number b ws
  | spent hgo hv hb =>
    subst hv
    rw [decision_passed hgo]
    simp only [budgetDecision, hb]
  | retry hgo hv hb hdelay =>
    subst hv
    rw [decision_passed hgo]
    simp only [budgetDecision, hb, hdelay]
    rfl

theorem Decided.no_attempt {p : Policy ε} {view : Context.View} {number : Nat} {e : ε}
    {b : Budget} {ws : Words} {events : List (Event η ε α)} {d : Decision}
    (h : p.Decided view number e b ws events d) :
    ∀ x ∈ events, x.invocation? = none ∧ x.result? = none := by
  cases h with
  | early => simp [Event.invocation?, Event.result?]
  | spent =>
    cases hearly : p.earlyReturn <;>
      simp [passed, hearly, Event.invocation?, Event.result?]
  | retry =>
    cases hearly : p.earlyReturn <;> cases hhint : p.delayHint <;>
      simp [passed, hintAsked, hearly, hhint, Event.invocation?, Event.result?]

/-- A failure is judged once, unless the run stops with it before. -/
theorem Decided.verdicts {p : Policy ε} {view : Context.View} {number : Nat} {e : ε} {b : Budget}
    {ws : Words} {events : List (Event η ε α)} {d : Decision}
    (h : p.Decided view number e b ws events d) :
    events.filterMap Event.verdict? =
      if p.stopsEarly view e then [] else [p.classifier view e] := by
  cases h with
  | early hstop =>
    rw [hstop]
    rfl
  | spent hgo hv =>
    rw [hgo, hv, passed]
    cases p.earlyReturn <;> rfl
  | retry hgo hv =>
    rw [hgo, hv, passed, hintAsked]
    cases p.earlyReturn <;> cases p.delayHint <;> rfl

end Policy

end Retry
