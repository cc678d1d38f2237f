import Mathlib.Data.List.Chain
import Retry.Proofs.Time

namespace Retry

namespace Timeline

/-- `l'` comes after `l`, and in between the tokens in `revoked` were cancelled by others. -/
structure Onward (l : Timeline) (revoked : List Token) (l' : Timeline) : Prop where
  now_le : l.now ≤ l'.now
  isCancelled_iff : ∀ t, l'.isCancelled t = true ↔ l.isCancelled t = true ∨
    (∃ x ∈ revoked, x.covers t = true) ∨
    ∃ plan ∈ l.planned, plan ∉ l'.planned ∧ plan.token.covers t = true
  planned_subset : l'.planned ⊆ l.planned
  due : ∀ plan ∈ l.planned, plan ∉ l'.planned → plan.moment ≤ l'.now

variable {l l' l'' : Timeline} {revoked revoked' : List Token}

theorem onward_refl (l : Timeline) : l.Onward [] l where
  now_le := Nat.le_refl _
  isCancelled_iff := by
    intro t
    constructor
    · exact Or.inl
    · rintro (h | ⟨x, hx, -⟩ | ⟨plan, hplan, hgone, -⟩)
      · exact h
      · cases hx
      · exact absurd hplan hgone
  planned_subset := List.Subset.refl _
  due := fun _ hplan hgone => absurd hplan hgone

theorem Onward.trans (h : l.Onward revoked l') (h' : l'.Onward revoked' l'') :
    l.Onward (revoked ++ revoked') l'' where
  now_le := Nat.le_trans h.now_le h'.now_le
  isCancelled_iff := by
    intro t
    rw [h'.isCancelled_iff, h.isCancelled_iff]
    constructor
    · rintro ((hold | ⟨x, hx, hc⟩ | ⟨plan, hplan, hgone, hc⟩) | ⟨x, hx, hc⟩ | ⟨plan, hplan, hgone, hc⟩)
      · exact Or.inl hold
      · exact Or.inr (Or.inl ⟨x, List.mem_append_left _ hx, hc⟩)
      · exact Or.inr (Or.inr ⟨plan, hplan, fun hlater => hgone (h'.planned_subset hlater), hc⟩)
      · exact Or.inr (Or.inl ⟨x, List.mem_append_right _ hx, hc⟩)
      · exact Or.inr (Or.inr ⟨plan, h.planned_subset hplan, hgone, hc⟩)
    · rintro (hold | ⟨x, hx, hc⟩ | ⟨plan, hplan, hgone, hc⟩)
      · exact Or.inl (Or.inl hold)
      · rcases List.mem_append.mp hx with hx | hx
        · exact Or.inl (Or.inr (Or.inl ⟨x, hx, hc⟩))
        · exact Or.inr (Or.inl ⟨x, hx, hc⟩)
      · by_cases hmid : plan ∈ l'.planned
        · exact Or.inr (Or.inr ⟨plan, hmid, hgone, hc⟩)
        · exact Or.inl (Or.inr (Or.inr ⟨plan, hplan, hmid, hc⟩))
  planned_subset := List.Subset.trans h'.planned_subset h.planned_subset
  due := by
    intro plan hplan hgone
    by_cases hmid : plan ∈ l'.planned
    · exact h'.due plan hmid hgone
    · exact Nat.le_trans (h.due plan hplan hmid) h'.now_le

theorem mem_planned_advanceTo {m : Nat} {plan : Plan} :
    plan ∈ (l.advanceTo m).planned ↔ plan ∈ l.planned ∧ max l.now m < plan.moment := by
  simp only [advanceTo, List.mem_filter, decide_eq_true_eq]

/-- As time goes on, plans are carried out when they are due, and only then. -/
theorem onward_advanceTo (l : Timeline) (m : Nat) : l.Onward [] (l.advanceTo m) where
  now_le := l.le_now_advanceTo m
  isCancelled_iff := by
    intro t
    rw [isCancelled_advanceTo_iff]
    constructor
    · rintro (hold | ⟨plan, hplan, hdue, hc⟩)
      · exact Or.inl hold
      · refine Or.inr (Or.inr ⟨plan, hplan, fun hlater => ?_, hc⟩)
        exact absurd (mem_planned_advanceTo.mp hlater).2 (Nat.not_lt.mpr hdue)
    · rintro (hold | ⟨x, hx, -⟩ | ⟨plan, hplan, hgone, hc⟩)
      · exact Or.inl hold
      · cases hx
      · refine Or.inr ⟨plan, hplan, Nat.le_of_not_lt fun hlate => ?_, hc⟩
        exact hgone (mem_planned_advanceTo.mpr ⟨hplan, hlate⟩)
  planned_subset := fun _ hlater => (mem_planned_advanceTo.mp hlater).1
  due := by
    intro plan hplan hgone
    refine Nat.le_of_not_lt fun hlate => ?_
    exact hgone (mem_planned_advanceTo.mpr ⟨hplan, hlate⟩)

theorem onward_cancel (l : Timeline) (t : Token) : l.Onward [t] (l.cancel t) where
  now_le := Nat.le_refl _
  isCancelled_iff := by
    intro s
    rw [isCancelled_cancel, Bool.or_eq_true]
    constructor
    · rintro (hc | hold)
      · exact Or.inr (Or.inl ⟨t, List.mem_singleton_self t, hc⟩)
      · exact Or.inl hold
    · rintro (hold | ⟨x, hx, hc⟩ | ⟨plan, hplan, hgone, -⟩)
      · exact Or.inr hold
      · exact Or.inl (List.mem_singleton.mp hx ▸ hc)
      · exact absurd hplan hgone
  planned_subset := List.Subset.refl _
  due := fun _ hplan hgone => absurd hplan hgone

/-- Giving out a token changes nothing for those that there are. -/
theorem onward_derive (l : Timeline) (t : Token) : l.Onward [] (l.derive t).2 where
  __ := l.onward_refl

def Before (l l' : Timeline) : Prop := ∃ revoked, l.Onward revoked l'

theorem Onward.before (h : l.Onward revoked l') : l.Before l' := ⟨revoked, h⟩

theorem before_refl (l : Timeline) : l.Before l := l.onward_refl.before

theorem Before.trans (h : l.Before l') (h' : l'.Before l'') : l.Before l'' :=
  h.elim fun _ h => h'.elim fun _ h' => (h.trans h').before

instance : Trans Before Before Before := ⟨Before.trans⟩

theorem Before.now_le (h : l.Before l') : l.now ≤ l'.now := h.elim fun _ h => h.now_le

theorem Before.isCancelled {t : Token} (h : l.Before l') (ht : l.isCancelled t = true) :
    l'.isCancelled t = true :=
  h.elim fun _ h => (h.isCancelled_iff t).mpr (Or.inl ht)

/-- A planned cancellation is still to come, or has come. -/
theorem Before.planned {plan : Plan} (h : l.Before l') (hplan : plan ∈ l.planned) :
    plan ∈ l'.planned ∨ l'.isCancelled plan.token = true := by
  obtain ⟨revoked, h⟩ := h
  by_cases hlater : plan ∈ l'.planned
  · exact Or.inl hlater
  · refine Or.inr ((h.isCancelled_iff _).mpr (Or.inr (Or.inr ⟨plan, hplan, hlater, ?_⟩)))
    exact plan.token.covers_refl

/-- Timelines that come one after another, the first of them after `l` and the last before `l'`. -/
def Course (l : Timeline) (lines : List Timeline) (l' : Timeline) : Prop :=
  List.IsChain Before (l :: (lines ++ [l']))

variable {lines more : List Timeline}

theorem course_nil (h : l.Before l') : l.Course [] l' := List.isChain_pair.mpr h

theorem course_cons {m : Timeline} (h : l.Before m) (hmore : m.Course lines l') :
    l.Course (m :: lines) l' := List.isChain_cons_cons.mpr ⟨h, hmore⟩

theorem Course.append (h : l.Course lines l') (h' : l'.Course more l'') :
    l.Course (lines ++ more) l'' := by
  have hall : List.IsChain Before ((l :: lines) ++ l' :: (more ++ [l''])) :=
    List.isChain_split.mpr ⟨h, h'⟩
  refine hall.sublist ?_
  simp

theorem Course.of_before {m : Timeline} (h : l.Before m) (hmore : m.Course lines l') :
    l.Course lines l' := (course_nil h).append hmore

/-- What comes after a timeline on a course, comes after it in time. -/
theorem Course.after {m : Timeline} (h : l.Course (lines ++ m :: more) l') :
    (∀ x ∈ more, m.Before x) ∧ m.Before l' := by
  have hsub : List.Sublist (m :: (more ++ [l'])) (l :: (lines ++ m :: more ++ [l'])) := by
    rw [List.append_assoc]
    exact (List.sublist_append_right lines _).trans (List.sublist_cons_self l _)
  have hpair := List.pairwise_cons.mp (List.IsChain.sublist h hsub).pairwise
  exact ⟨fun x hx => hpair.1 x (List.mem_append_left _ hx), hpair.1 l' (by simp)⟩

theorem Course.mem {m : Timeline} (h : l.Course lines l') (hm : m ∈ lines) :
    l.Before m ∧ m.Before l' := by
  have hpair := List.pairwise_cons.mp (List.IsChain.pairwise h)
  obtain ⟨before, after, rfl⟩ := List.append_of_mem hm
  exact ⟨hpair.1 m (by simp), h.after.2⟩

theorem Course.before (h : l.Course lines l') : l.Before l' :=
  (List.pairwise_cons.mp (List.IsChain.pairwise h)).1 l' (by simp)

end Timeline

namespace Context

/-- Who waits for the context is told by `m` that it is done, if nobody intervenes. -/
def DueBy (c : Context) (l : Timeline) (m : Nat) : Prop := ∃ moment ∈ c.signalAt l, moment ≤ m

variable {c : Context} {l l' : Timeline} {m : Nat}

theorem isDone_of_before (h : l.Before l') (hdone : c.isDone l = true) : c.isDone l' = true := by
  rcases isDone_iff.mp hdone with hc | ⟨d, hd, hle⟩
  · exact isDone_of_isCancelled (h.isCancelled hc)
  · exact isDone_of_deadline hd (Nat.le_trans hle h.now_le)

theorem live_of_before (h : l.Before l') (hlive : c.err l' = none) : c.err l = none := by
  by_contra hdone
  have hstill := isDone_of_before h (Option.isSome_iff_ne_none.mpr hdone)
  simp [isDone, hlive] at hstill

theorem sooner_le_left {a b : Option Nat} {x : Nat} (ha : a = some x) :
    ∃ y ∈ sooner a b, y ≤ x := by
  subst ha
  cases b with
  | none => exact ⟨x, rfl, Nat.le_refl x⟩
  | some y => exact ⟨min x y, rfl, Nat.min_le_left x y⟩

theorem sooner_le_right {a b : Option Nat} {x : Nat} (hb : b = some x) :
    ∃ y ∈ sooner a b, y ≤ x := by
  subst hb
  cases a with
  | none => exact ⟨x, rfl, Nat.le_refl x⟩
  | some y => exact ⟨min y x, rfl, Nat.min_le_right y x⟩

/-- A context is due by a moment, which is not past, if it is cancelled, or if until then someone
plans to cancel it or the tick of its deadline comes. -/
theorem dueBy_iff : c.DueBy l m ↔ l.now ≤ m ∧ (l.isCancelled c.token = true ∨
    (∃ plan ∈ l.planned, plan.moment ≤ m ∧ plan.token.covers c.token = true) ∨
    ∃ d ∈ c.deadline, Duration.tick d ≤ m) := by
  constructor
  · rintro ⟨moment, hmoment, hle⟩
    have hnow := now_le_signalAt hmoment
    refine ⟨Nat.le_trans hnow hle, ?_⟩
    obtain ⟨reason, hreason⟩ := signal_of_signalAt hmoment
    have hlater : (l.advanceTo moment).now = moment := Nat.max_eq_right hnow
    rcases signal_isSome_iff.mp (Option.isSome_iff_exists.mpr ⟨_, hreason⟩) with hc | ⟨d, hd, hpast⟩
    · rcases Timeline.isCancelled_advanceTo_iff.mp hc with hold | ⟨plan, hplan, hdue, hc⟩
      · exact Or.inl hold
      · rw [Nat.max_eq_right hnow] at hdue
        exact Or.inr (Or.inl ⟨plan, hplan, Nat.le_trans hdue hle, hc⟩)
    · rw [hlater] at hpast
      exact Or.inr (Or.inr ⟨d, hd, Nat.le_trans hpast hle⟩)
  · rintro ⟨hnow, hwhy⟩
    cases hsignal : c.signal l with
    | some reason => exact ⟨l.now, signalAt_of_signal hsignal, hnow⟩
    | none =>
      rw [DueBy, signalAt_of_signal_eq_none hsignal]
      rcases hwhy with hc | ⟨plan, hplan, hdue, hc⟩ | ⟨d, hd, hdue⟩
      · rw [signal_of_isCancelled hc] at hsignal
        cases hsignal
      · obtain ⟨first, hat, hle⟩ := Timeline.exists_cancelledAt hplan hc
        obtain ⟨y, hy, hyle⟩ := sooner_le_left (b := c.deadline.map Duration.tick) hat
        exact ⟨y, hy, by omega⟩
      · obtain ⟨y, hy, hyle⟩ := sooner_le_right (a := l.cancelledAt c.token)
          (show c.deadline.map Duration.tick = some (Duration.tick d) by rw [hd]; rfl)
        exact ⟨y, hy, Nat.le_trans hyle hdue⟩

theorem dueBy_of_isCancelled (hc : l.isCancelled c.token = true) (hnow : l.now ≤ m) :
    c.DueBy l m := dueBy_iff.mpr ⟨hnow, Or.inl hc⟩

theorem dueBy_of_planned {plan : Plan} (hplan : plan ∈ l.planned)
    (hc : plan.token.covers c.token = true) (hnow : l.now ≤ m) (hm : plan.moment ≤ m) :
    c.DueBy l m := dueBy_iff.mpr ⟨hnow, Or.inr (Or.inl ⟨plan, hplan, hm, hc⟩)⟩

theorem dueBy_of_deadline {d : Nat} (hd : c.deadline = some d) (hnow : l.now ≤ m)
    (hm : Duration.tick d ≤ m) : c.DueBy l m :=
  dueBy_iff.mpr ⟨hnow, Or.inr (Or.inr ⟨d, hd, hm⟩)⟩

/-- A context that is done is due by the next tick. -/
theorem dueBy_of_isDone (hdone : c.isDone l = true) (hm : Duration.tick l.now ≤ m) :
    c.DueBy l m := by
  have hnow := Nat.le_trans (Duration.le_tick l.now) hm
  rcases isDone_iff.mp hdone with hc | ⟨d, hd, hle⟩
  · exact dueBy_of_isCancelled hc hnow
  · exact dueBy_of_deadline hd hnow (Nat.le_trans (Duration.tick_mono hle) hm)

/-- A wait for a context ends at the first moment by which the context is due. -/
theorem signalAt_eq_some_iff :
    c.signalAt l = some m ↔ c.DueBy l m ∧ ∀ k, c.DueBy l k → m ≤ k := by
  constructor
  · intro hm
    refine ⟨⟨m, hm, Nat.le_refl m⟩, ?_⟩
    rintro k ⟨moment, hmoment, hle⟩
    have hsame : m = moment := Option.some.inj (hm.symm.trans hmoment)
    exact hsame ▸ hle
  · rintro ⟨⟨moment, hmoment, hle⟩, hfirst⟩
    have hback := hfirst moment ⟨moment, hmoment, Nat.le_refl moment⟩
    rw [Nat.le_antisymm hback hle]
    exact hmoment

theorem DueBy.now_le (h : c.DueBy l m) : l.now ≤ m := (dueBy_iff.mp h).1

/-- What makes a context due is carried along as time goes on. -/
theorem DueBy.later (h : c.DueBy l m) (hlater : l.Before l') (hnow : l'.now ≤ m) :
    c.DueBy l' m := by
  refine dueBy_iff.mpr ⟨hnow, ?_⟩
  rcases (dueBy_iff.mp h).2 with hc | ⟨plan, hplan, hdue, hc⟩ | hdeadline
  · exact Or.inl (hlater.isCancelled hc)
  · rcases hlater.planned hplan with hstill | hgone
    · exact Or.inr (Or.inl ⟨plan, hstill, hdue, hc⟩)
    · exact Or.inl (Timeline.isCancelled_of_covers hgone hc)
  · exact Or.inr (Or.inr hdeadline)

/-- Work under `o` is watched by `c` as well: `o` is done whenever `c` is. -/
structure Above (c o : Context) : Prop where
  token : c.token.covers o.token = true
  deadline : ∀ d ∈ c.deadline, ∃ d' ∈ o.deadline, d' ≤ d

variable {o : Context}

theorem above_refl (c : Context) : c.Above c where
  token := c.token.covers_refl
  deadline := fun d hd => ⟨d, hd, Nat.le_refl d⟩

theorem Above.dueBy (h : c.Above o) (hdue : c.DueBy l m) : o.DueBy l m := by
  obtain ⟨hnow, hwhy⟩ := dueBy_iff.mp hdue
  refine dueBy_iff.mpr ⟨hnow, ?_⟩
  rcases hwhy with hc | ⟨plan, hplan, hdue, hc⟩ | ⟨d, hd, hdue⟩
  · exact Or.inl (Timeline.isCancelled_of_covers hc h.token)
  · exact Or.inr (Or.inl ⟨plan, hplan, hdue, Token.covers_trans hc h.token⟩)
  · obtain ⟨d', hd', hle⟩ := h.deadline d hd
    exact Or.inr (Or.inr ⟨d', hd', Nat.le_trans (Duration.tick_mono hle) hdue⟩)

end Context

end Retry
