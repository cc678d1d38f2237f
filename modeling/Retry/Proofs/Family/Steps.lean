import Mathlib.Data.List.Induction
import Retry.Context.Family
import Retry.Proofs.Time

namespace Retry

namespace Family

/-- The family that steps make of `f`. -/
def after (f : Family) (steps : List Step) : Family := steps.foldl (fun f s => (f.step s).1) f

/-- The family that steps make of none. -/
def grown (steps : List Step) : Family := ({} : Family).after steps

/-- What context `i` says of itself; one that there is not says nothing. -/
def err (f : Family) (i : Nat) : Option Reason := f.members[i]?.bind (·.err f.line)

theorem err_eq_cancelled_iff {f : Family} {j : Nat} : f.err j = some .cancelled ↔
    ∃ d, f.members[j]? = some d ∧ f.line.isCancelled d.token = true := by
  unfold err
  cases f.members[j]? with
  | none => simp
  | some d => simp [Context.err_eq_cancelled_iff]

section After

variable (f : Family) (steps : List Step) (s : Step)

theorem after_concat : f.after (steps ++ [s]) = ((f.after steps).step s).1 := by
  simp only [after, List.foldl_append, List.foldl_cons, List.foldl_nil]

theorem after_append (more : List Step) : f.after (steps ++ more) = (f.after steps).after more := by
  simp only [after, List.foldl_append]

theorem grown_concat : grown (steps ++ [s]) = ((grown steps).step s).1 := after_concat {} steps s

end After

variable {f g h : Family}

/-- Whether time passes in a step. -/
def passes (f : Family) : Step → Bool
  | .advance _ => true
  | .await of _ => of < f.members.length
  | .background | .child _ | .copy _ | .withTimeout .. | .withDeadline .. | .ofToken _ | .cancel _
  | .cancelAt .. => false

/-- What a step does to the time that a family lives in. -/
inductive Turns (f : Family) : Step → Timeline → Prop where
  | cancel {i : Nat} {c : Context} (hc : f.members[i]? = some c) :
      Turns f (.cancel i) (f.line.cancel c.token)
  | plan {i m : Nat} {c : Context} (hc : f.members[i]? = some c) :
      Turns f (.cancelAt i m) (f.line.plan m c.token)
  | pass {s : Step} (hs : f.passes s = true) (m : Nat) : Turns f s (f.line.advanceTo m)
  | still {s : Step} (hs : f.passes s = false) (n : Nat)
      (hcancel : ∀ i, s = .cancel i → f.members.length ≤ i)
      (hplan : ∀ i m, s = .cancelAt i m → f.members.length ≤ i) :
      Turns f s { f.line with issued := n }

theorem turns_extend (of : Nat) (derive : Context → Timeline → Context × Timeline) {s : Step}
    (h : ∀ c, ∃ n, (derive c f.line).2 = { f.line with issued := n }) (hs : f.passes s = false)
    (hcancel : ∀ i, s ≠ .cancel i) (hplan : ∀ i m, s ≠ .cancelAt i m) :
    Turns f s (f.extend of derive).line := by
  have hline : ∃ n, (f.extend of derive).line = { f.line with issued := n } := by
    unfold extend
    cases f.members[of]? with
    | none => exact ⟨f.line.issued, rfl⟩
    | some c => exact h c
  obtain ⟨n, hline⟩ := hline
  rw [hline]
  exact .still hs n (fun i hi => absurd hi (hcancel i)) fun i m hi => absurd hi (hplan i m)

theorem turns_step (f : Family) (s : Step) : f.Turns s (f.step s).1.line := by
  cases s with
  | background => exact .still rfl _ nofun nofun
  | child of | copy of | ofToken of | withDeadline of =>
    exact turns_extend of _ (fun c => ⟨_, rfl⟩) rfl nofun nofun
  | withTimeout of timeout =>
    refine turns_extend of _ (fun c => ?_) rfl nofun nofun
    unfold Context.withTimeout
    split <;> exact ⟨_, rfl⟩
  | advance length => exact .pass rfl _
  | cancel of =>
    simp only [step]
    cases hc : f.members[of]? with
    | none =>
      refine .still rfl f.line.issued (fun i hi => ?_) nofun
      cases hi
      exact List.getElem?_eq_none_iff.mp hc
    | some c => exact .cancel hc
  | cancelAt of moment =>
    simp only [step]
    cases hc : f.members[of]? with
    | none =>
      refine .still rfl f.line.issued nofun fun i m hi => ?_
      cases hi
      exact List.getElem?_eq_none_iff.mp hc
    | some c => exact .plan hc
  | await of patience =>
    simp only [step]
    cases hc : f.members[of]? with
    | none =>
      have hout : f.passes (.await of patience) = false :=
        decide_eq_false (Nat.not_lt.mpr (List.getElem?_eq_none_iff.mp hc))
      exact .still hout f.line.issued nofun nofun
    | some c =>
      have hin : f.passes (.await of patience) = true :=
        decide_eq_true (List.getElem?_eq_some_iff.mp hc).1
      simp only [await]
      repeat' split
      all_goals exact .pass hin _

theorem members_await (c : Context) (patience : Nat) :
    (f.await c patience).1.members = f.members := by
  simp only [await]
  repeat' split
  all_goals rfl

theorem members_extend (of : Nat) (derive : Context → Timeline → Context × Timeline) :
    f.members <+: (f.extend of derive).members := by
  unfold extend
  split
  · exact List.prefix_append _ _
  · exact List.prefix_refl _

theorem members_step (f : Family) (s : Step) : f.members <+: (f.step s).1.members := by
  cases s with
  | background => exact List.prefix_append _ _
  | child of | copy of | withTimeout of | withDeadline of | ofToken of =>
    exact members_extend of _
  | advance => exact List.prefix_refl _
  | cancel of | cancelAt of =>
    simp only [step]
    split <;> exact List.prefix_refl _
  | await of patience =>
    simp only [step]
    split
    · exact (members_await _ _).symm ▸ List.prefix_refl _
    · exact List.prefix_refl _

/-- `g` comes of `f` as steps are taken. -/
structure Later (f g : Family) : Prop where
  members : f.members <+: g.members
  now_le : f.line.now ≤ g.line.now
  isCancelled : ∀ t, f.line.isCancelled t = true → g.line.isCancelled t = true

theorem later_refl (f : Family) : f.Later f where
  members := List.prefix_refl _
  now_le := Nat.le_refl _
  isCancelled _ ht := ht

theorem Later.trans (hfg : f.Later g) (hgh : g.Later h) : f.Later h where
  members := hfg.members.trans hgh.members
  now_le := Nat.le_trans hfg.now_le hgh.now_le
  isCancelled t ht := hgh.isCancelled t (hfg.isCancelled t ht)

theorem later_step (f : Family) (s : Step) : f.Later (f.step s).1 := by
  have hmembers := f.members_step s
  have hturns := f.turns_step s
  generalize (f.step s).1 = g at hmembers hturns
  obtain ⟨line, members⟩ := g
  refine ⟨hmembers, ?_, fun t ht => ?_⟩
  · cases hturns with
    | cancel | plan | still => exact Nat.le_refl _
    | pass hs m => exact f.line.le_now_advanceTo m
  · cases hturns with
    | plan | still => exact ht
    | pass hs m => exact Timeline.isCancelled_advanceTo_iff.mpr (Or.inl ht)
    | cancel hc =>
      show (f.line.cancel _).isCancelled t = true
      rw [Timeline.isCancelled_cancel, ht, Bool.or_true]

theorem later_after (f : Family) (steps : List Step) : f.Later (f.after steps) := by
  induction steps using List.reverseRecOn with
  | nil => exact f.later_refl
  | append_singleton steps s ih =>
    rw [after_concat]
    exact ih.trans (later_step _ s)

theorem later_grown (steps : List Step) (s : Step) :
    (grown steps).Later (grown (steps ++ [s])) := by
  rw [grown_concat]
  exact later_step _ s

theorem turns_grown (steps : List Step) (s : Step) :
    (grown steps).Turns s (grown (steps ++ [s])).line := by
  rw [grown_concat]
  exact turns_step _ s

theorem Later.member (hfg : f.Later g) {i : Nat} {c : Context} (hc : f.members[i]? = some c) :
    g.members[i]? = some c := by
  obtain ⟨added, hadded⟩ := hfg.members
  rw [← hadded, List.getElem?_append_left (List.getElem?_eq_some_iff.mp hc).1]
  exact hc

end Family

end Retry
