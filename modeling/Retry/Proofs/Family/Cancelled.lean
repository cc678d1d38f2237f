import Mathlib.Data.List.Infix
import Retry.Proofs.Family.Lineage
import Retry.Proofs.Onward

namespace Retry

namespace Family

/-- Among the steps is one of which `P` holds, given those before it. -/
def Took (steps : List Step) (P : List Step → Step → Prop) : Prop :=
  ∃ before s, before ++ [s] <+: steps ∧ P before s

/-- The cancellation of context `i` was planned for moment `m`. -/
def Plans (steps : List Step) (i m : Nat) : Prop :=
  Took steps fun before s => s = .cancelAt i m ∧ i < (grown before).members.length

/-- Context `i` was cancelled, by a call or by a plan that had become due when time passed. -/
def Cancels (steps : List Step) (i : Nat) : Prop :=
  Took steps fun before s => s = .cancel i ∧ i < (grown before).members.length ∨
    ∃ m, Plans before i m ∧ (grown before).passes s = true ∧ m ≤ (grown (before ++ [s])).line.now

theorem not_took_nil {P : List Step → Step → Prop} : ¬ Took [] P := by
  rintro ⟨before, s, hprefix, -⟩
  exact absurd (List.prefix_nil.mp hprefix) (List.concat_ne_nil s before)

theorem took_concat {steps : List Step} {s : Step} {P : List Step → Step → Prop} :
    Took (steps ++ [s]) P ↔ Took steps P ∨ P steps s := by
  constructor
  · rintro ⟨before, s', hprefix, hP⟩
    rcases List.prefix_concat_iff.mp hprefix with heq | hprefix
    · obtain ⟨rfl, hs⟩ := List.append_inj' heq rfl
      cases hs
      exact Or.inr hP
    · exact Or.inl ⟨before, s', hprefix, hP⟩
  · rintro (⟨before, s', hprefix, hP⟩ | hP)
    · exact ⟨before, s', hprefix.trans (List.prefix_append _ _), hP⟩
    · exact ⟨steps, s, List.prefix_refl _, hP⟩

namespace Turns

variable {f : Family} {s : Step} {l : Timeline}

theorem of_cancel {i : Nat} (h : f.Turns (.cancel i) l) (hi : i < f.members.length) :
    ∃ c, f.members[i]? = some c ∧ l = f.line.cancel c.token := by
  cases h with
  | cancel hc => exact ⟨_, hc, rfl⟩
  | pass hs => cases hs
  | still hs n hcancel => exact absurd hi (Nat.not_lt.mpr (hcancel i rfl))

theorem of_plan {i m : Nat} (h : f.Turns (.cancelAt i m) l) (hi : i < f.members.length) :
    ∃ c, f.members[i]? = some c ∧ l = f.line.plan m c.token := by
  cases h with
  | plan hc => exact ⟨_, hc, rfl⟩
  | pass hs => cases hs
  | still hs n hcancel hplan => exact absurd hi (Nat.not_lt.mpr (hplan i m rfl))

/-- A plan stays as it is, or it is carried out when it is due. -/
theorem keeps {plan : Plan} (h : f.Turns s l) (hplan : plan ∈ f.line.planned) :
    plan ∈ l.planned ∧ (f.passes s = true → l.now < plan.moment) ∨
      l.isCancelled plan.token = true := by
  cases h with
  | cancel => exact Or.inl ⟨hplan, nofun⟩
  | still hs => exact Or.inl ⟨hplan, fun hpasses => absurd (hpasses.symm.trans hs) nofun⟩
  | plan => exact Or.inl ⟨List.mem_cons_of_mem _ hplan, nofun⟩
  | pass hs m =>
    by_cases hdue : plan.moment ≤ max f.line.now m
    · refine Or.inr (Timeline.isCancelled_advanceTo_iff.mpr (Or.inr ?_))
      exact ⟨plan, hplan, hdue, plan.token.covers_refl⟩
    · have hlate := Nat.lt_of_not_le hdue
      exact Or.inl ⟨Timeline.mem_planned_advanceTo.mpr ⟨hplan, hlate⟩, fun _ => hlate⟩

/-- What is planned after a step was planned before, or the step has planned it. -/
theorem plans {plan : Plan} (h : f.Turns s l) (hplan : plan ∈ l.planned) :
    plan ∈ f.line.planned ∨
      ∃ i c, s = .cancelAt i plan.moment ∧ f.members[i]? = some c ∧ plan.token = c.token := by
  cases h with
  | cancel | still => exact Or.inl hplan
  | pass => exact Or.inl (Timeline.mem_planned_advanceTo.mp hplan).1
  | plan hc =>
    rcases List.mem_cons.mp hplan with rfl | hplan
    · exact Or.inr ⟨_, _, rfl, hc, rfl⟩
    · exact Or.inl hplan

/-- What is cancelled after a step was so before, or it is the step that cancels it, or the step
carries out a plan. -/
theorem cancels {t : Token} (h : f.Turns s l) (ht : l.isCancelled t = true) :
    f.line.isCancelled t = true ∨
      (∃ i c, s = .cancel i ∧ f.members[i]? = some c ∧ c.token.covers t = true) ∨
      f.passes s = true ∧ ∃ plan ∈ f.line.planned, plan.moment ≤ l.now ∧
        plan.token.covers t = true := by
  cases h with
  | plan | still => exact Or.inl ht
  | cancel hc =>
    rw [Timeline.isCancelled_cancel, Bool.or_eq_true] at ht
    rcases ht with ht | ht
    · exact Or.inr (Or.inl ⟨_, _, rfl, hc, ht⟩)
    · exact Or.inl ht
  | pass hs m =>
    rcases Timeline.isCancelled_advanceTo_iff.mp ht with ht | hdue
    · exact Or.inl ht
    · exact Or.inr (Or.inr ⟨hs, hdue⟩)

end Turns

/-- What a family owes to the cancellations that its steps have called for. -/
structure Ledger (steps : List Step) (f : Family) : Prop where
  cancels : ∀ i, Cancels steps i → ∃ c, f.members[i]? = some c ∧ f.line.isCancelled c.token = true
  plans : ∀ i m, Plans steps i m → ∃ c, f.members[i]? = some c ∧
    (⟨m, c.token⟩ ∈ f.line.planned ∨ f.line.isCancelled c.token = true)
  cancelled : ∀ t, f.line.isCancelled t = true →
    ∃ i c, Cancels steps i ∧ f.members[i]? = some c ∧ c.token.covers t = true
  planned : ∀ plan ∈ f.line.planned,
    ∃ i c, Plans steps i plan.moment ∧ f.members[i]? = some c ∧ plan.token = c.token

theorem ledger_nil : Ledger [] (grown []) where
  cancels _ h := absurd h not_took_nil
  plans _ _ h := absurd h not_took_nil
  cancelled _ h := nomatch h
  planned := nofun

namespace Ledger

variable {steps : List Step}

theorem cancels_concat (h : Ledger steps (grown steps)) (s : Step) (i : Nat)
    (hi : Cancels (steps ++ [s]) i) : ∃ c, (grown (steps ++ [s])).members[i]? = some c ∧
      (grown (steps ++ [s])).line.isCancelled c.token = true := by
  have hlater := later_grown steps s
  have hturns := turns_grown steps s
  rcases took_concat.mp hi with hi | ⟨rfl, hin⟩ | ⟨m, hplans, hpasses, hdue⟩
  · obtain ⟨c, hc, hcancelled⟩ := h.cancels i hi
    exact ⟨c, hlater.member hc, hlater.isCancelled _ hcancelled⟩
  · obtain ⟨c, hc, hline⟩ := hturns.of_cancel hin
    refine ⟨c, hlater.member hc, ?_⟩
    rw [hline, Timeline.isCancelled_cancel, Token.covers_refl, Bool.true_or]
  · obtain ⟨c, hc, hplanned | hcancelled⟩ := h.plans i m hplans
    · refine ⟨c, hlater.member hc, ?_⟩
      rcases hturns.keeps hplanned with ⟨-, hlate⟩ | hcancelled
      · exact absurd hdue (Nat.not_le.mpr (hlate hpasses))
      · exact hcancelled
    · exact ⟨c, hlater.member hc, hlater.isCancelled _ hcancelled⟩

theorem plans_concat (h : Ledger steps (grown steps)) (s : Step) (i m : Nat)
    (hi : Plans (steps ++ [s]) i m) : ∃ c, (grown (steps ++ [s])).members[i]? = some c ∧
      (⟨m, c.token⟩ ∈ (grown (steps ++ [s])).line.planned ∨
        (grown (steps ++ [s])).line.isCancelled c.token = true) := by
  have hlater := later_grown steps s
  have hturns := turns_grown steps s
  rcases took_concat.mp hi with hi | ⟨rfl, hin⟩
  · obtain ⟨c, hc, hplanned | hcancelled⟩ := h.plans i m hi
    · refine ⟨c, hlater.member hc, ?_⟩
      rcases hturns.keeps hplanned with ⟨hstays, -⟩ | hcancelled
      · exact Or.inl hstays
      · exact Or.inr hcancelled
    · exact ⟨c, hlater.member hc, Or.inr (hlater.isCancelled _ hcancelled)⟩
  · obtain ⟨c, hc, hline⟩ := hturns.of_plan hin
    exact ⟨c, hlater.member hc, Or.inl (hline ▸ List.mem_cons_self)⟩

theorem cancelled_concat (h : Ledger steps (grown steps)) (s : Step) (t : Token)
    (ht : (grown (steps ++ [s])).line.isCancelled t = true) :
    ∃ i c, Cancels (steps ++ [s]) i ∧ (grown (steps ++ [s])).members[i]? = some c ∧
      c.token.covers t = true := by
  have hlater := later_grown steps s
  rcases (turns_grown steps s).cancels ht with
    ht | ⟨i, c, rfl, hc, ht⟩ | ⟨hpasses, plan, hplan, hdue, ht⟩
  · obtain ⟨i, c, hi, hc, ht⟩ := h.cancelled t ht
    exact ⟨i, c, took_concat.mpr (Or.inl hi), hlater.member hc, ht⟩
  · have hin := (List.getElem?_eq_some_iff.mp hc).1
    exact ⟨i, c, took_concat.mpr (Or.inr (Or.inl ⟨rfl, hin⟩)), hlater.member hc, ht⟩
  · obtain ⟨i, c, hi, hc, htoken⟩ := h.planned plan hplan
    have hcancels : Cancels (steps ++ [s]) i :=
      took_concat.mpr (Or.inr (Or.inr ⟨plan.moment, hi, hpasses, hdue⟩))
    exact ⟨i, c, hcancels, hlater.member hc, htoken ▸ ht⟩

theorem planned_concat (h : Ledger steps (grown steps)) (s : Step) (plan : Plan)
    (hplan : plan ∈ (grown (steps ++ [s])).line.planned) :
    ∃ i c, Plans (steps ++ [s]) i plan.moment ∧ (grown (steps ++ [s])).members[i]? = some c ∧
      plan.token = c.token := by
  have hlater := later_grown steps s
  rcases (turns_grown steps s).plans hplan with hplan | ⟨i, c, rfl, hc, htoken⟩
  · obtain ⟨i, c, hi, hc, htoken⟩ := h.planned plan hplan
    exact ⟨i, c, took_concat.mpr (Or.inl hi), hlater.member hc, htoken⟩
  · have hin := (List.getElem?_eq_some_iff.mp hc).1
    exact ⟨i, c, took_concat.mpr (Or.inr ⟨rfl, hin⟩), hlater.member hc, htoken⟩

end Ledger

theorem ledger_grown (steps : List Step) : Ledger steps (grown steps) := by
  induction steps using List.reverseRecOn with
  | nil => exact ledger_nil
  | append_singleton steps s ih =>
    exact ⟨ih.cancels_concat s, ih.plans_concat s, ih.cancelled_concat s, ih.planned_concat s⟩

/-- A context is cancelled if and only if a context that stands over it has been, before or after it
was made and whether or not its deadline had passed. Cancelling one that does not stand over it
changes nothing about it. -/
theorem cancelled_iff_over_cancels (steps : List Step) :
    (∀ j, (grown steps).err j = some .cancelled ↔
      ∃ i, Over Origin.twin? (origins steps) i j ∧ Cancels steps i) ∧
    ∀ i j, ¬ Over Origin.twin? (origins steps) i j →
      (grown (steps ++ [.cancel i])).err j = (grown steps).err j := by
  have hlineage := (lineage_grown steps).1
  have hledger := ledger_grown steps
  constructor
  · intro j
    rw [err_eq_cancelled_iff]
    constructor
    · rintro ⟨d, hd, hcancelled⟩
      obtain ⟨i, c, hi, hc, hcovers⟩ := hledger.cancelled d.token hcancelled
      exact ⟨i, hlineage.over_of_covers hc hd hcovers, hi⟩
    · rintro ⟨i, hover, hi⟩
      have hcancelled := err_eq_cancelled_iff.mpr (hledger.cancels i hi)
      exact err_eq_cancelled_iff.mp (cancelled_of_over steps hover hcancelled)
  · intro i j hover
    rw [grown_concat]
    cases hc : (grown steps).members[i]? with
    | none => simp only [step, hc]
    | some c =>
      simp only [step, hc, err]
      cases hd : (grown steps).members[j]? with
      | none => rfl
      | some d =>
        have hcovers : c.token.covers d.token = false := by
          apply Bool.eq_false_iff.mpr
          intro hcovers
          exact hover (hlineage.over_of_covers hc hd hcovers)
        show d.err ((grown steps).line.cancel c.token) = d.err (grown steps).line
        exact Context.err_cancel_of_not_covers hcovers _

/-- Derived after a clone of its parent was cancelled, with a deadline that had passed. -/
example : (grown [.background, .copy 0, .advance 5, .cancel 1, .withDeadline 0 3]).err 2 =
    some .cancelled := by decide

end Family

end Retry
