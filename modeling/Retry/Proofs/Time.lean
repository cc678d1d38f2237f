import Retry.Context.Basic

namespace Retry

namespace Duration

theorem tick_mono {a b : Nat} (h : a ≤ b) : tick a ≤ tick b :=
  Nat.mul_le_mul_right _ (Nat.div_le_div_right (Nat.add_le_add_right h _))

theorem tick_tick (t : Nat) : tick (tick t) = tick t := by
  unfold tick millisecond
  omega

/-- A clock shows the seconds in 63 bits, and the nanoseconds. -/
def Shown (moment : Nat) : Prop :=
  ∃ secs nanos, secs < 1 <<< 63 ∧ nanos < second ∧ moment = secs * second + nanos

theorem shown_iff {moment : Nat} : Shown moment ↔ moment < clockEnd := by
  have hend : clockEnd = 1 <<< 63 * second := rfl
  have hsecond : 0 < second := by decide
  rw [hend]
  constructor
  · rintro ⟨secs, nanos, hsecs, hnanos, rfl⟩
    calc secs * second + nanos < secs * second + second := Nat.add_lt_add_left hnanos _
      _ = (secs + 1) * second := (Nat.succ_mul secs second).symm
      _ ≤ 1 <<< 63 * second := Nat.mul_le_mul_right second hsecs
  · intro h
    refine ⟨moment / second, moment % second, ?_, Nat.mod_lt _ hsecond, ?_⟩
    · exact (Nat.div_lt_iff_lt_mul hsecond).mpr h
    · rw [Nat.mul_comm, Nat.div_add_mod]

instance : DecidablePred Shown := fun _ => decidable_of_iff _ shown_iff.symm

theorem later?_of_shown {t length : Nat} (h : Shown (t + length)) :
    later? t length = some (t + length) := if_pos (shown_iff.mp h)

theorem later?_of_not_shown {t length : Nat} (h : ¬ Shown (t + length)) :
    later? t length = none := if_neg fun hlt => h (shown_iff.mpr hlt)

end Duration

namespace Token

theorem not_covers_parent (t : Token) (n : Nat) : (t.child n).covers t = false := by
  cases h : (t.child n).covers t with
  | false => rfl
  | true =>
    have hlen := (covers_iff.mp h).length_le
    simp only [child, List.length_cons] at hlen
    omega

end Token

namespace Timeline

theorem le_now_advanceTo (l : Timeline) (m : Nat) : l.now ≤ (l.advanceTo m).now :=
  Nat.le_max_left _ _

theorem le_advanceTo_now (l : Timeline) (m : Nat) : m ≤ (l.advanceTo m).now :=
  Nat.le_max_right _ _

theorem isCancelled_of_covers {l : Timeline} {t s : Token} (h : l.isCancelled t = true)
    (hc : t.covers s = true) : l.isCancelled s = true := by
  obtain ⟨x, hx, hcovers⟩ := List.any_eq_true.mp h
  exact List.any_eq_true.mpr ⟨x, hx, Token.covers_trans hcovers hc⟩

theorem isCancelled_advanceTo_iff {l : Timeline} {m : Nat} {t : Token} :
    (l.advanceTo m).isCancelled t = true ↔ l.isCancelled t = true ∨
      ∃ plan ∈ l.planned, plan.moment ≤ max l.now m ∧ plan.token.covers t = true := by
  simp only [isCancelled, advanceTo, List.any_append, List.any_map, List.any_filter,
    Bool.or_eq_true, List.any_eq_true, Function.comp_apply, Bool.and_eq_true, decide_eq_true_eq]
  exact or_comm

theorem exists_plan_of_cancelledAt {l : Timeline} {t : Token} {m : Nat}
    (h : l.cancelledAt t = some m) :
    ∃ plan ∈ l.planned, plan.moment ≤ m ∧ plan.token.covers t = true := by
  obtain ⟨first, hfirst, rfl⟩ := Option.map_eq_some_iff.mp h
  obtain ⟨plan, hplan, rfl⟩ := List.mem_map.mp (List.min?_mem hfirst)
  obtain ⟨hmem, hcovers⟩ := List.mem_filter.mp hplan
  exact ⟨plan, hmem, Nat.le_max_right _ _, hcovers⟩

theorem exists_cancelledAt {l : Timeline} {t : Token} {plan : Plan} (hplan : plan ∈ l.planned)
    (hcovers : plan.token.covers t = true) :
    ∃ m, l.cancelledAt t = some m ∧ m ≤ max l.now plan.moment := by
  have hmem : plan.moment ∈ (l.planned.filter (·.token.covers t)).map (·.moment) :=
    List.mem_map_of_mem (List.mem_filter.mpr ⟨hplan, hcovers⟩)
  obtain ⟨first, hfirst⟩ := Option.isSome_iff_exists.mp (List.isSome_min?_of_mem hmem)
  have hle : first ≤ plan.moment := (List.min?_eq_some_iff.mp hfirst).2 _ hmem
  refine ⟨max l.now first, ?_, by omega⟩
  rw [cancelledAt, hfirst]
  rfl

theorem isCancelled_of_cancelledAt {l : Timeline} {t : Token} {m : Nat}
    (h : l.cancelledAt t = some m) : (l.advanceTo m).isCancelled t = true := by
  obtain ⟨plan, hplan, hdue, hc⟩ := exists_plan_of_cancelledAt h
  exact isCancelled_advanceTo_iff.mpr
    (Or.inr ⟨plan, hplan, Nat.le_trans hdue (Nat.le_max_right _ _), hc⟩)

theorem now_le_cancelledAt {l : Timeline} {t : Token} {m : Nat} (h : l.cancelledAt t = some m) :
    l.now ≤ m := by
  obtain ⟨first, -, rfl⟩ := Option.map_eq_some_iff.mp h
  exact Nat.le_max_left _ _

end Timeline

namespace Context

/-- A cancellation goes before a missed deadline. -/
theorem err_eq_cancelled_iff {c : Context} {l : Timeline} :
    c.err l = some .cancelled ↔ l.isCancelled c.token = true := by
  unfold err
  cases l.isCancelled c.token with
  | true => simp
  | false => cases c.deadline <;> simp

theorem err_of_isCancelled {c : Context} {l : Timeline} (h : l.isCancelled c.token = true) :
    c.err l = some .cancelled := err_eq_cancelled_iff.mpr h

theorem err_eq_deadlineExceeded_iff {c : Context} {l : Timeline} :
    c.err l = some .deadlineExceeded ↔
      c.err l ≠ some .cancelled ∧ ∃ d ∈ c.deadline, d ≤ l.now := by
  unfold err
  cases l.isCancelled c.token with
  | true => simp
  | false =>
    cases c.deadline with
    | none => simp
    | some d => by_cases hle : d ≤ l.now <;> simp [hle]

theorem isDone_iff {c : Context} {l : Timeline} :
    c.isDone l = true ↔ l.isCancelled c.token = true ∨ ∃ d ∈ c.deadline, d ≤ l.now := by
  unfold isDone err
  cases l.isCancelled c.token with
  | true => simp
  | false =>
    cases c.deadline with
    | none => simp
    | some d => by_cases hle : d ≤ l.now <;> simp [hle]

theorem isDone_of_isCancelled {c : Context} {l : Timeline} (h : l.isCancelled c.token = true) :
    c.isDone l = true := isDone_iff.mpr (Or.inl h)

theorem isDone_of_deadline {c : Context} {l : Timeline} {d : Nat} (hd : c.deadline = some d)
    (hl : d ≤ l.now) : c.isDone l = true := isDone_iff.mpr (Or.inr ⟨d, hd, hl⟩)

theorem sooner_eq_some {a b : Option Nat} {m : Nat} (h : sooner a b = some m) :
    a = some m ∨ b = some m := by
  cases a with
  | none => exact Or.inr h
  | some x =>
    cases b with
    | none => exact Or.inl h
    | some y =>
      have hm : min x y = m := Option.some.inj h
      rcases Nat.le_total x y with hxy | hxy
      · exact Or.inl (by rw [← hm, Nat.min_eq_left hxy])
      · exact Or.inr (by rw [← hm, Nat.min_eq_right hxy])

theorem signal_isSome_iff {c : Context} {l : Timeline} : (c.signal l).isSome = true ↔
    l.isCancelled c.token = true ∨ ∃ d ∈ c.deadline, Duration.tick d ≤ l.now := by
  unfold signal
  cases l.isCancelled c.token with
  | true => simp
  | false =>
    cases c.deadline with
    | none => simp
    | some d => by_cases hfired : Duration.tick d ≤ l.now <;> simp [hfired]

theorem signal_eq_none_iff {c : Context} {l : Timeline} : c.signal l = none ↔
    l.isCancelled c.token = false ∧ ∀ d ∈ c.deadline, l.now < Duration.tick d := by
  rw [← Option.not_isSome_iff_eq_none, signal_isSome_iff]
  simp only [not_or, not_exists, not_and, Bool.not_eq_true, Nat.not_le]

/-- What a waiter finds, the context says of itself. -/
theorem err_of_signal {c : Context} {l : Timeline} {reason : Reason}
    (h : c.signal l = some reason) : c.err l = some reason := by
  revert h
  unfold signal err
  cases l.isCancelled c.token with
  | true => simp only [if_true, imp_self]
  | false =>
    cases c.deadline with
    | none => simp
    | some d =>
      intro h
      by_cases hfired : Duration.tick d ≤ l.now
      · have hpast : d ≤ l.now := Nat.le_trans (Duration.le_tick d) hfired
        simpa [hfired, hpast] using h
      · simp [hfired] at h

theorem signal_of_isCancelled {c : Context} {l : Timeline} (h : l.isCancelled c.token = true) :
    c.signal l = some .cancelled := by
  rw [signal, if_pos h]

theorem signalAt_of_signal {c : Context} {l : Timeline} {reason : Reason}
    (h : c.signal l = some reason) : c.signalAt l = some l.now := by
  rw [signalAt, h]
  rfl

theorem signalAt_of_signal_eq_none {c : Context} {l : Timeline} (h : c.signal l = none) :
    c.signalAt l = sooner (l.cancelledAt c.token) (c.deadline.map Duration.tick) := by
  rw [signalAt, h]
  rfl

/-- A wait ends when there is something to find. -/
theorem signal_of_signalAt {c : Context} {l : Timeline} {m : Nat} (h : c.signalAt l = some m) :
    ∃ reason, c.signal (l.advanceTo m) = some reason := by
  apply Option.isSome_iff_exists.mp
  apply signal_isSome_iff.mpr
  unfold signalAt at h
  split at h
  · next hsignal =>
    rcases signal_isSome_iff.mp hsignal with hcancelled | ⟨d, hd, hfired⟩
    · exact Or.inl (Timeline.isCancelled_advanceTo_iff.mpr (Or.inl hcancelled))
    · exact Or.inr ⟨d, hd, Nat.le_trans hfired (l.le_now_advanceTo m)⟩
  · rcases sooner_eq_some h with hcancelled | hdeadline
    · exact Or.inl (Timeline.isCancelled_of_cancelledAt hcancelled)
    · obtain ⟨d, hd, rfl⟩ := Option.map_eq_some_iff.mp hdeadline
      exact Or.inr ⟨d, hd, l.le_advanceTo_now _⟩

theorem now_le_signalAt {c : Context} {l : Timeline} {m : Nat} (h : c.signalAt l = some m) :
    l.now ≤ m := by
  cases hsignal : c.signal l with
  | some reason =>
    rw [signalAt_of_signal hsignal] at h
    exact Nat.le_of_eq (Option.some.inj h)
  | none =>
    rw [signalAt_of_signal_eq_none hsignal] at h
    rcases sooner_eq_some h with hcancelled | hdeadline
    · exact Timeline.now_le_cancelledAt hcancelled
    · obtain ⟨d, hd, rfl⟩ := Option.map_eq_some_iff.mp hdeadline
      exact Nat.le_of_lt ((signal_eq_none_iff.mp hsignal).2 d hd)

theorem err_cancel_of_not_covers {c : Context} {t : Token} (h : t.covers c.token = false)
    (l : Timeline) : c.err (l.cancel t) = c.err l := by
  unfold err
  rw [Timeline.isCancelled_cancel, h, Bool.false_or]
  rfl

/-- Cancelling a derived token is not seen above it. -/
theorem err_cancel_child (c : Context) (l : Timeline) (n : Nat) :
    c.err (l.cancel (c.token.child n)) = c.err l :=
  err_cancel_of_not_covers (c.token.not_covers_parent n) l

end Context

end Retry
