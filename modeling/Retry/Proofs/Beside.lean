import Retry.Proofs.Played
import Retry.Proofs.Sequence

namespace Retry

namespace Token

/-- Every number on the token's way was given out before `bound`. -/
def Old (bound : Nat) (t : Token) : Prop := ∀ k ∈ t.path, k < bound

variable {bound n m : Nat} {s t : Token}

theorem Old.covers_child (ht : t.Old bound) (hn : bound ≤ n) (s : Token) :
    t.covers (s.child n) = t.covers s := by
  rw [Bool.eq_iff_iff, covers_iff, covers_iff]
  constructor
  · intro h
    rcases List.suffix_cons_iff.mp h with heq | habove
    · have hmem : n ∈ t.path := heq ▸ List.mem_cons_self
      exact absurd (ht n hmem) (Nat.not_lt.mpr hn)
    · exact habove
  · exact fun h => h.trans (List.suffix_cons n s.path)

theorem not_covers_old (hn : bound ≤ n) (ht : t.Old bound) (s : Token) :
    (s.child n).covers t = false := by
  rw [Bool.eq_false_iff]
  intro h
  have hmem : n ∈ t.path := (covers_iff.mp h).subset List.mem_cons_self
  exact absurd (ht n hmem) (Nat.not_lt.mpr hn)

theorem not_covers_sibling (s : Token) (hne : n ≠ m) : (s.child n).covers (s.child m) = false := by
  rw [Bool.eq_false_iff]
  intro h
  rcases List.suffix_cons_iff.mp (covers_iff.mp h) with heq | habove
  · exact hne (List.cons.inj heq).1
  · have hlength := habove.length_le
    simp only [child, List.length_cons] at hlength
    omega

end Token

namespace Timeline

/-- All tokens that were cancelled or will be, are old. -/
structure Settled (bound : Nat) (l : Timeline) : Prop where
  cancelled : ∀ t ∈ l.cancelled, t.Old bound
  planned : ∀ plan ∈ l.planned, plan.token.Old bound

/-- The old tokens fare in `l'` as in `l`, and the children of `t` from number `n` on as `t`. -/
structure Beside (bound n : Nat) (t : Token) (l l' : Timeline) : Prop where
  now : l'.now = l.now
  planned : l'.planned = l.planned
  plans : ∀ plan ∈ l.planned, plan.token.Old bound
  old : ∀ s, s.Old bound → l'.isCancelled s = l.isCancelled s
  child : ∀ m, n ≤ m → l'.isCancelled (t.child m) = l.isCancelled t

variable {bound n : Nat} {t : Token} {l l' : Timeline}

theorem beside_refl (hl : l.Settled bound) (hn : bound ≤ n) (t : Token) : l.Beside bound n t l where
  now := rfl
  planned := rfl
  plans := hl.planned
  old _ _ := rfl
  child m hm := by
    unfold isCancelled
    rw [Bool.eq_iff_iff, List.any_eq_true, List.any_eq_true]
    refine exists_congr fun s => and_congr_right fun hs => ?_
    rw [(hl.cancelled s hs).covers_child (Nat.le_trans hn hm)]

namespace Beside

theorem cancel {s : Token} (h : l.Beside bound n t l') (hn : bound ≤ n) (hs : s.Old bound) :
    (l.cancel s).Beside bound n t (l'.cancel s) where
  now := h.now
  planned := h.planned
  plans := h.plans
  old r hr := by rw [isCancelled_cancel, isCancelled_cancel, h.old r hr]
  child m hm := by
    rw [isCancelled_cancel, isCancelled_cancel, h.child m hm,
      hs.covers_child (Nat.le_trans hn hm)]

theorem advanceTo (h : l.Beside bound n t l') (hn : bound ≤ n) (m : Nat) :
    (l.advanceTo m).Beside bound n t (l'.advanceTo m) where
  now := by rw [now_advanceTo, now_advanceTo, h.now]
  planned := by simp only [Timeline.advanceTo, h.now, h.planned]
  plans plan hplan := h.plans plan (List.mem_filter.mp hplan).1
  old s hs := by
    rw [Bool.eq_iff_iff, isCancelled_advanceTo_iff, isCancelled_advanceTo_iff, h.old s hs, h.now,
      h.planned]
  child k hk := by
    rw [Bool.eq_iff_iff, isCancelled_advanceTo_iff, isCancelled_advanceTo_iff, h.child k hk, h.now,
      h.planned]
    refine or_congr_right (exists_congr fun plan => and_congr_right fun hplan => ?_)
    rw [(h.plans plan hplan).covers_child (Nat.le_trans hn hk)]

/-- The next child can be given back without anyone else seeing it. -/
theorem release (h : l.Beside bound n t l') (hn : bound ≤ n) :
    l.Beside bound (n + 1) t (l'.cancel (t.child n)) where
  now := h.now
  planned := h.planned
  plans := h.plans
  old s hs := by
    rw [isCancelled_cancel, Token.not_covers_old hn hs, Bool.false_or]
    exact h.old s hs
  child m hm := by
    rw [isCancelled_cancel, t.not_covers_sibling (by omega), Bool.false_or]
    exact h.child m (by omega)

/-- How many tokens have been given out makes no difference. -/
theorem issue (h : l.Beside bound n t l') (issued : Nat) :
    l.Beside bound n t { l' with issued } :=
  ⟨h.now, h.planned, h.plans, h.old, h.child⟩

theorem cancelledAt (h : l.Beside bound n t l') (s : Token) :
    l'.cancelledAt s = l.cancelledAt s := by
  simp only [Timeline.cancelledAt, h.now, h.planned]

theorem err (h : l.Beside bound n t l') {c : Context} (hc : c.token.Old bound) :
    c.err l' = c.err l := by
  simp only [Context.err, h.old c.token hc, h.now]

theorem signal (h : l.Beside bound n t l') {c : Context} (hc : c.token.Old bound) :
    c.signal l' = c.signal l := by
  simp only [Context.signal, h.old c.token hc, h.now]

theorem signalAt (h : l.Beside bound n t l') {c : Context} (hc : c.token.Old bound) :
    c.signalAt l' = c.signalAt l := by
  unfold Context.signalAt
  rw [h.signal hc, h.now, h.cancelledAt]

end Beside

end Timeline

namespace Context

/-- The context has a deadline, and no later than `limit`. -/
def EndsBy (c : Context) (limit : Nat) : Prop := ∃ d ∈ c.deadline, d ≤ limit

/-- A child of `c` that ends with it, or at `limit` if `c` does not end by then. -/
structure Inside (c : Context) (n limit : Nat) (own : Context) : Prop where
  token : own.token = c.token.child n
  deadline : own.deadline = c.deadline ∨ own.deadline = some limit ∧ ¬ c.EndsBy limit

variable {bound n limit m : Nat} {c own : Context} {l l' : Timeline} {reason : Reason}

/-- Who waits for a context that does not end by the limit finds nothing until then but that it was
cancelled. -/
theorem isCancelled_of_signal (h : ¬ c.EndsBy limit) (hnow : l.now ≤ limit)
    (hsignal : c.signal l = some reason) : l.isCancelled c.token = true := by
  rcases signal_isSome_iff.mp (Option.isSome_iff_exists.mpr ⟨_, hsignal⟩) with hc | ⟨d, hd, hpast⟩
  · exact hc
  · have hlate : d ≤ limit := Nat.le_trans (Duration.le_tick d) (Nat.le_trans hpast hnow)
    exact absurd ⟨d, hd, hlate⟩ h

namespace Inside

variable (hin : c.Inside n limit own) (hbeside : l.Beside bound n c.token l')

include hin hbeside

theorem isCancelled : l'.isCancelled own.token = l.isCancelled c.token := by
  rw [hin.token, hbeside.child n (Nat.le_refl n)]

theorem err_of_live (hlive : c.err l = none) (hlimit : l.now < limit) : own.err l' = none := by
  have hnone : c.isDone l ≠ true := by simp [isDone, hlive]
  by_contra hdone
  apply hnone
  rcases isDone_iff.mp (Option.isSome_iff_ne_none.mpr hdone) with hc | ⟨d, hd, hpast⟩
  · exact isDone_of_isCancelled ((hin.isCancelled hbeside).symm.trans hc)
  · rw [hbeside.now] at hpast
    rcases hin.deadline with hown | ⟨hown, -⟩
    · exact isDone_of_deadline (hown.symm.trans hd) hpast
    · have hlate : limit = d := Option.some.inj (hown.symm.trans hd)
      omega

/-- By the limit the child's waiter finds what a waiter for the context finds. -/
theorem signal_eq (h : c.signal l = some reason) (hle : c.EndsBy limit ∨ l.now ≤ limit) :
    own.signal l' = some reason := by
  rcases hin.deadline with hown | ⟨-, hlate⟩
  · rw [← h]
    simp only [signal, hin.isCancelled hbeside, hown, hbeside.now]
  · have hc := isCancelled_of_signal hlate (hle.resolve_left hlate) h
    rw [signal_of_isCancelled ((hin.isCancelled hbeside).trans hc),
      ← h, signal_of_isCancelled hc]

variable (hn : bound ≤ n)

include hn

theorem covers_plan {plan : Plan} (hplan : plan ∈ l.planned) :
    plan.token.covers own.token = plan.token.covers c.token := by
  rw [hin.token, (hbeside.plans plan hplan).covers_child hn]

/-- The child is due whenever the context is. -/
theorem dueBy (h : c.DueBy l m) : own.DueBy l' m := by
  obtain ⟨hnow, hwhy⟩ := dueBy_iff.mp h
  refine dueBy_iff.mpr ⟨hbeside.now.symm ▸ hnow, ?_⟩
  rcases hwhy with hc | ⟨plan, hplan, hdue, hc⟩ | ⟨d, hd, hdue⟩
  · exact Or.inl ((hin.isCancelled hbeside).trans hc)
  · refine Or.inr (Or.inl ⟨plan, hbeside.planned.symm ▸ hplan, hdue, ?_⟩)
    exact (hin.covers_plan hbeside hn hplan).trans hc
  · refine Or.inr (Or.inr ?_)
    rcases hin.deadline with hown | ⟨hown, hlate⟩
    · exact ⟨d, hown.trans hd, hdue⟩
    · have hlimit : limit ≤ d := Nat.le_of_not_le fun hle => hlate ⟨d, hd, hle⟩
      exact ⟨limit, hown, Nat.le_trans (Duration.tick_mono hlimit) hdue⟩

/-- Before the limit the child is due only if the context is. -/
theorem dueBy_of_own (h : own.DueBy l' m) (hlt : c.EndsBy limit ∨ m < limit) : c.DueBy l m := by
  obtain ⟨hnow, hwhy⟩ := dueBy_iff.mp h
  refine dueBy_iff.mpr ⟨hbeside.now ▸ hnow, ?_⟩
  rcases hwhy with hc | ⟨plan, hplan, hdue, hc⟩ | ⟨d, hd, hdue⟩
  · exact Or.inl ((hin.isCancelled hbeside).symm.trans hc)
  · have hplan := hbeside.planned ▸ hplan
    exact Or.inr (Or.inl ⟨plan, hplan, hdue, (hin.covers_plan hbeside hn hplan).symm.trans hc⟩)
  · rcases hin.deadline with hown | ⟨hown, hlate⟩
    · exact Or.inr (Or.inr ⟨d, hown.symm.trans hd, hdue⟩)
    · have hlimit : limit = d := Option.some.inj (hown.symm.trans hd)
      have htick := Duration.le_tick d
      have hbefore := hlt.resolve_left hlate
      omega

/-- Work that its context cuts off by the limit, is cut off in the same moment under the child. -/
theorem signalAt_eq (hm : c.signalAt l = some m) (hle : c.EndsBy limit ∨ m ≤ limit) :
    own.signalAt l' = some m := by
  obtain ⟨hdue, hfirst⟩ := signalAt_eq_some_iff.mp hm
  refine signalAt_eq_some_iff.mpr ⟨hin.dueBy hbeside hn hdue, fun k hk => ?_⟩
  refine Nat.le_of_not_lt fun hlt => ?_
  have hbefore := hle.imp_right fun hle => Nat.lt_of_lt_of_le hlt hle
  exact Nat.not_le.mpr hlt (hfirst k (hin.dueBy_of_own hbeside hn hk hbefore))

/-- A wait that the context lets come to its end by the limit, comes to it under the child. -/
theorem le_signalAt {wake : Nat} (hle : c.EndsBy limit ∨ wake ≤ limit)
    (hwake : ∀ m ∈ c.signalAt l, wake ≤ m) (hm : own.signalAt l' = some m) : wake ≤ m := by
  refine Nat.le_of_not_lt fun hlt => ?_
  have hbefore := hle.imp_right fun hle => Nat.lt_of_lt_of_le hlt hle
  obtain ⟨first, hfirst, hsooner⟩ := hin.dueBy_of_own hbeside hn ⟨m, hm, Nat.le_refl m⟩ hbefore
  exact Nat.not_le.mpr hlt (Nat.le_trans (hwake first hfirst) hsooner)

end Inside

end Context

namespace Played

variable {η ε α : Type} {bound n limit : Nat} {ctx own : Context} {l l' : Timeline}

/-- Watched work comes to an end by the limit, or its context does. -/
def OverBy (ctx : Context) (limit : Nat) (q : Played η ε α) : Prop :=
  ctx.EndsBy limit ∨ q.ending ≠ .stuck ∧ q.line.now ≤ limit

/-- Work went alike in two timelines beside each other. -/
structure Alike (bound n : Nat) (t : Token) (q q' : Played η ε α) : Prop where
  ending : q'.ending = q.ending
  notes : q'.notes.map (fun note => (note.1.now, note.2)) =
    q.notes.map fun note => (note.1.now, note.2)
  line : q.line.Beside bound n t q'.line

theorem cutAt_alike (hin : ctx.Inside n limit own) (h : l.Beside bound n ctx.token l')
    (hn : bound ≤ n) {moment : Nat} (hm : ctx.signalAt l = some moment)
    (hover : (Task.cutAt ctx moment l : Played η ε α).OverBy ctx limit) :
    own.signalAt l' = some moment ∧
      (Task.cutAt ctx moment l : Played η ε α).Alike bound n ctx.token
        (Task.cutAt own moment l') := by
  have hend : ctx.EndsBy limit ∨ (l.advanceTo moment).now ≤ limit := by
    rw [cutAt_eq] at hover
    exact hover.imp_right (·.2)
  have hle := hend.imp_right (Nat.le_trans (l.le_advanceTo_now moment))
  have hbeside := h.advanceTo hn moment
  obtain ⟨reason, hreason⟩ := Context.signal_of_signalAt hm
  refine ⟨hin.signalAt_eq h hn hm hle, ?_⟩
  rw [cutAt_eq, cutAt_eq, hreason, hin.signal_eq hbeside hreason hend]
  exact ⟨rfl, rfl, hbeside⟩

theorem await_of_le {ctx : Context} {wake : Nat} {k : Timeline → Played η ε α}
    (h : ∀ moment ∈ ctx.signalAt l, wake ≤ moment) :
    await ctx (some wake) l k = k (l.advanceTo wake) := by
  unfold await
  cases hm : ctx.signalAt l with
  | none => rfl
  | some moment => simp only [if_neg (Nat.not_lt.mpr (h moment hm))]

/-- A wait goes alike, if what follows it does. -/
theorem await_alike (hin : ctx.Inside n limit own) (h : l.Beside bound n ctx.token l')
    (hn : bound ≤ n) {wake : Option Nat} {k k' : Timeline → Played η ε α}
    (hnow : ∀ line, line.now ≤ (k line).line.now)
    (hover : (await ctx wake l k).OverBy ctx limit)
    (hk : ∀ w, (k (l.advanceTo w)).OverBy ctx limit →
      (k (l.advanceTo w)).Alike bound n ctx.token (k' (l'.advanceTo w))) :
    (await ctx wake l k).Alike bound n ctx.token (await own wake l' k') := by
  cases wake with
  | none =>
    cases hm : ctx.signalAt l with
    | none =>
      simp only [await, hm] at hover
      rcases hover with ⟨d, hd, -⟩ | ⟨hstuck, -⟩
      · obtain ⟨moment, hmoment, -⟩ := Context.dueBy_of_deadline hd
          (Nat.le_max_left l.now _) (Nat.le_max_right _ (Duration.tick d))
        rw [hm] at hmoment
        cases hmoment
      · exact absurd rfl hstuck
    | some moment =>
      simp only [await, hm] at hover ⊢
      obtain ⟨hdone, halike⟩ := cutAt_alike hin h hn hm hover
      simp only [hdone]
      exact halike
  | some w =>
    by_cases hcut : ∃ moment, ctx.signalAt l = some moment ∧ moment < w
    · obtain ⟨moment, hm, hlt⟩ := hcut
      simp only [await, hm, if_pos hlt] at hover ⊢
      obtain ⟨hdone, halike⟩ := cutAt_alike hin h hn hm hover
      simp only [hdone, if_pos hlt]
      exact halike
    · have hwake : ∀ moment ∈ ctx.signalAt l, w ≤ moment := fun moment hm =>
        Nat.le_of_not_lt fun hlt => hcut ⟨moment, hm, hlt⟩
      rw [await_of_le hwake] at hover ⊢
      have hle : ctx.EndsBy limit ∨ w ≤ limit := hover.imp_right fun hend =>
        Nat.le_trans (l.le_advanceTo_now w) (Nat.le_trans (hnow _) hend.2)
      rw [await_of_le fun moment hm => hin.le_signalAt h hn hle hwake hm]
      exact hk w hover

end Played

namespace Task

variable {η ε α : Type} {bound n limit : Nat} {ctx own : Context} {l l' : Timeline}

/-- Every token that the work names is old. -/
def Old (bound : Nat) : Task η ε α → Prop
  | finish _ | hang => True
  | note _ next | sleep _ next => next.Old bound
  | cancel token next => token.Old bound ∧ next.Old bound
  | untilDone other next => other.token.Old bound ∧ ∀ reason, (next reason).Old bound

theorem now_le_play (ctx : Context) (t : Task η ε α) (l : Timeline) :
    l.now ≤ (t.play ctx l).line.now := (plays_play ctx t l).onward.now_le

/-- Work that names nothing but old tokens and is over in time, goes alike under a child of its
context that ends no sooner. -/
theorem play_alike (hin : ctx.Inside n limit own) (h : l.Beside bound n ctx.token l')
    (hn : bound ≤ n) {t : Task η ε α} (ht : t.Old bound)
    (hover : (t.play ctx l).OverBy ctx limit) :
    (t.play ctx l).Alike bound n ctx.token (t.play own l') := by
  induction t generalizing l l' with
  | finish r => exact ⟨rfl, rfl, h⟩
  | note what next ih =>
    obtain ⟨hending, hnotes, hline⟩ := ih h ht hover
    refine ⟨hending, ?_, hline⟩
    simp only [play, List.map_cons, h.now, hnotes]
  | cancel token next ih => exact ih (h.cancel hn ht.1) ht.2 hover
  | sleep length next ih =>
    rw [play_sleep] at hover ⊢
    rw [play_sleep, h.now]
    refine Played.await_alike hin h hn (fun line => now_le_play ctx next line) hover ?_
    exact fun w hover => ih (h.advanceTo hn w) ht hover
  | untilDone other next ih =>
    rw [play_untilDone] at hover ⊢
    rw [play_untilDone, h.signalAt ht.1]
    refine Played.await_alike hin h hn (fun line => ?_) hover fun w hover => ?_
    · cases other.signal line with
      | none => exact Nat.le_refl _
      | some reason => exact now_le_play ctx (next reason) line
    · have hbeside := h.advanceTo hn w
      rw [hbeside.signal ht.1]
      cases hreason : other.signal (l.advanceTo w) with
      | none => exact ⟨rfl, rfl, hbeside⟩
      | some reason =>
        rw [hreason] at hover
        exact ih reason hbeside (ht.2 reason) hover
  | hang =>
    have hhang := fun (c : Context) (l : Timeline) => play_hang (η := η) (ε := ε) (α := α) c l
      fun line => ⟨.stuck, [], line⟩
    rw [hhang] at hover ⊢
    rw [hhang]
    exact Played.await_alike hin h hn (fun line => Nat.le_refl _) hover fun w _ =>
      ⟨rfl, rfl, h.advanceTo hn w⟩

end Task

end Retry
