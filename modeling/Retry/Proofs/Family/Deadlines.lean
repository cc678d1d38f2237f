import Mathlib.Order.Bounds.Basic
import Retry.Proofs.Family.Lineage
import Retry.Proofs.Onward

namespace Retry

namespace Context

variable {c : Context} {l : Timeline}

/-- Who stops waiting, on a whole millisecond and before the wait ends, leaves a live context. -/
theorem err_eq_none_of_signalAt {last : Nat} (hlast : Duration.tick last = last)
    (hnow : l.now ≤ last) (h : ∀ m, c.signalAt l = some m → last < m) :
    c.err (l.advanceTo last) = none := by
  have hlate : ¬ c.DueBy l last := by
    rintro ⟨m, hm, hle⟩
    exact absurd (h m hm) (Nat.not_lt.mpr hle)
  rw [dueBy_iff] at hlate
  by_contra herr
  rcases isDone_iff.mp (Option.isSome_iff_ne_none.mpr herr) with hcancelled | ⟨d, hd, hpast⟩
  · rcases Timeline.isCancelled_advanceTo_iff.mp hcancelled with hbefore | ⟨plan, hplan, hdue, hc⟩
    · exact hlate ⟨hnow, Or.inl hbefore⟩
    · rw [Nat.max_eq_right hnow] at hdue
      exact hlate ⟨hnow, Or.inr (Or.inl ⟨plan, hplan, hdue, hc⟩)⟩
  · rw [Timeline.now_advanceTo, Nat.max_eq_right hnow] at hpast
    exact hlate ⟨hnow, Or.inr (Or.inr ⟨d, hd, hlast ▸ Duration.tick_mono hpast⟩)⟩

end Context

namespace Family

/-- `d` was asked for as a deadline on the way to context `j`. -/
inductive Asks (os : List Origin) : Nat → Nat → Prop where
  | own {j k d : Nat} (ho : os[j]? = some (.below k (some d))) : Asks os j d
  | above {j k d : Nat} {asked : Option Nat} (ho : os[j]? = some (.below k asked))
      (h : Asks os k d) : Asks os j d
  | copy {j k d : Nat} (ho : os[j]? = some (.copy k)) (h : Asks os k d) : Asks os j d

section Asks

variable {os : List Origin} {j k d : Nat}

theorem asks_below_iff {asked : Option Nat} (ho : os[j]? = some (.below k asked)) :
    Asks os j d ↔ asked = some d ∨ Asks os k d := by
  constructor
  · intro h
    cases h with
    | own ho' =>
      cases ho.symm.trans ho'
      exact Or.inl rfl
    | above ho' h =>
      cases ho.symm.trans ho'
      exact Or.inr h
    | copy ho' => cases ho.symm.trans ho'
  · rintro (rfl | h)
    · exact .own ho
    · exact .above ho h

theorem asks_copy_iff (ho : os[j]? = some (.copy k)) : Asks os j d ↔ Asks os k d := by
  constructor
  · intro h
    cases h with
    | own ho' | above ho' => cases ho.symm.trans ho'
    | copy ho' h =>
      cases ho.symm.trans ho'
      exact h
  · exact .copy ho

theorem not_asks {o : Origin} (ho : os[j]? = some o) (hcopied : o.copied? = none)
    (hbelow : ∀ k asked, o ≠ .below k asked) : ¬ Asks os j d := by
  intro h
  cases h with
  | own ho' | above ho' =>
    cases ho.symm.trans ho'
    exact hbelow _ _ rfl
  | copy ho' =>
    cases ho.symm.trans ho'
    cases hcopied

/-- What is asked for on the way to a context, is so on the way to all that it stands over. -/
theorem Over.asks {i : Nat} (h : Over Origin.copied? os i j) (hd : Asks os i d) : Asks os j d := by
  induction h with
  | self => exact hd
  | @twin i j k o ho ht h ih =>
    cases o with
    | root | below | bare => cases ht
    | copy =>
      cases ht
      exact .copy ho (ih hd)
  | @ofTwin i j k o ho ht h ih =>
    cases o with
    | root | below | bare => cases ht
    | copy =>
      cases ht
      exact ih ((asks_copy_iff ho).mp hd)
  | derived ho h ih => exact .above ho (ih hd)

end Asks

/-- `m` is the least of the moments of which `P` holds, or there are none. -/
def Least (P : Nat → Prop) : Option Nat → Prop
  | some d => IsLeast {d | P d} d
  | none => ∀ d, ¬ P d

theorem Least.eq_some_iff {P : Nat → Prop} {m : Option Nat} (h : Least P m) (d : Nat) :
    m = some d ↔ IsLeast {d | P d} d := by
  cases m with
  | none => exact ⟨nofun, fun hd => absurd hd.1 (h d)⟩
  | some e => exact ⟨fun heq => Option.some.inj heq ▸ h, fun hd => congrArg some (h.unique hd)⟩

theorem Least.congr {P Q : Nat → Prop} {m : Option Nat} (h : Least P m) (hPQ : ∀ d, P d ↔ Q d) :
    Least Q m := by
  rwa [← funext fun d => propext (hPQ d)]

/-- What was asked for below `c` counts along with what was asked for on the way to `c`. -/
theorem Least.within {P : Nat → Prop} {c : Context} (h : Least P c.deadline) (asked : Option Nat) :
    Least (fun d => asked = some d ∨ P d) (within c asked) := by
  cases asked with
  | none => simpa only [Family.within, reduceCtorEq, false_or] using h
  | some own =>
    unfold Family.within
    cases hc : c.deadline with
    | none =>
      rw [hc] at h
      refine ⟨Or.inl rfl, fun d hd => ?_⟩
      rcases hd with hd | hd
      · exact Nat.le_of_eq (Option.some.inj hd)
      · exact absurd hd (h d)
    | some above =>
      rw [hc] at h
      constructor
      · rcases Nat.le_total above own with hle | hle
        · rw [Context.earlier, Nat.min_eq_left hle]
          exact Or.inr h.1
        · rw [Context.earlier, Nat.min_eq_right hle]
          exact Or.inl rfl
      · intro d hd
        rcases hd with hd | hd
        · exact Nat.le_trans (Nat.min_le_right _ _) (Nat.le_of_eq (Option.some.inj hd))
        · exact Nat.le_trans (Nat.min_le_left _ _) (h.2 hd)

/-- A context's deadline is the earliest of those asked for on the way to it. -/
theorem Lineage.least {os : List Origin} {cs : List Context} (h : Lineage os cs) {j : Nat}
    {c : Context} (hc : cs[j]? = some c) : Least (Asks os j) c.deadline := by
  -- What a context is derived from, or copied from, was made before it.
  induction j using Nat.strongRecOn generalizing c with
  | ind j ih =>
    obtain ⟨o, ho⟩ := h.exists_origin hc
    have hfits := h.fits ho hc
    cases hfits with
    | root | bare => exact fun d => not_asks ho rfl nofun
    | copy hk =>
      obtain ⟨hlt, hk⟩ := getElem?_of_take hk
      exact (ih _ hlt hk).congr fun d => (asks_copy_iff ho).symm
    | below hk =>
      obtain ⟨hlt, hk⟩ := getElem?_of_take hk
      exact ((ih _ hlt hk).within _).congr fun d => (asks_below_iff ho).symm

/-- When context `i` ends, if it has a deadline. -/
def deadline (f : Family) (i : Nat) : Option Nat := f.members[i]?.bind (·.deadline)

theorem least_grown (steps : List Step) (j : Nat) :
    Least (Asks (origins steps) j) ((grown steps).deadline j) := by
  have hlineage := (lineage_grown steps).1
  unfold deadline
  cases hc : (grown steps).members[j]? with
  | some c => exact hlineage.least hc
  | none =>
    have hout : (origins steps)[j]? = none := by
      rw [List.getElem?_eq_none_iff, ← hlineage.length_eq]
      exact List.getElem?_eq_none_iff.mp hc
    intro d h
    cases h with
    | own ho | above ho | copy ho => cases hout.symm.trans ho

theorem exists_deadline_le (steps : List Step) {i j d : Nat}
    (hover : Over Origin.copied? (origins steps) i j) (hd : (grown steps).deadline i = some d) :
    ∃ d', (grown steps).deadline j = some d' ∧ d' ≤ d := by
  have hasked : Asks (origins steps) j d :=
    hover.asks (((least_grown steps i).eq_some_iff d).mp hd).1
  have hleast := least_grown steps j
  cases hj : (grown steps).deadline j with
  | none =>
    rw [hj] at hleast
    exact absurd hasked (hleast d)
  | some d' =>
    rw [hj] at hleast
    exact ⟨d', rfl, hleast.2 hasked⟩

/-- What one who waits for a context is told, the context says of itself at that moment; and if he
is told nothing, it says nothing. -/
theorem reason_await (f : Family) (c : Context) (patience : Nat) :
    (f.await c patience).2 = c.err (f.await c patience).1.line := by
  have htick := Duration.tick_tick (f.line.now + patience)
  have hnow : f.line.now ≤ Duration.tick (f.line.now + patience) :=
    Nat.le_trans (Nat.le_add_right _ _) (Duration.le_tick _)
  simp only [await]
  cases hat : c.signalAt f.line with
  | none => exact (Context.err_eq_none_of_signalAt htick hnow (by simp [hat])).symm
  | some moment =>
    by_cases hle : moment ≤ Duration.tick (f.line.now + patience)
    · obtain ⟨reason, hreason⟩ := Context.signal_of_signalAt hat
      simp only [if_pos hle, hreason, Context.err_of_signal hreason]
    · simp only [if_neg hle]
      refine (Context.err_eq_none_of_signalAt htick hnow fun m hm => ?_).symm
      cases hat.symm.trans hm
      exact Nat.lt_of_not_le hle

theorem err_ne_none_iff {f : Family} {j : Nat} : f.err j ≠ none ↔
    f.err j = some .cancelled ∨ ∃ d, f.deadline j = some d ∧ d ≤ f.line.now := by
  unfold err deadline
  cases f.members[j]? with
  | none => simp
  | some c =>
    show c.err f.line ≠ none ↔ c.err f.line = some .cancelled ∨ ∃ d, c.deadline = some d ∧ _
    rw [← Option.isSome_iff_ne_none, Context.err_eq_cancelled_iff]
    exact Context.isDone_iff

/-- Being done is for ever, and a cancellation is the only thing that can still come. -/
theorem Later.err {f g : Family} (h : f.Later g) {j : Nat} {reason : Reason}
    (hreason : f.err j = some reason) :
    ∃ later, g.err j = some later ∧
      (later = reason ∨ reason = .deadlineExceeded ∧ later = .cancelled) := by
  obtain ⟨c, hc, hreason⟩ := Option.bind_eq_some_iff.mp hreason
  have hg : g.err j = c.err g.line := by rw [Family.err, h.member hc, Option.bind_some]
  rw [hg]
  cases reason with
  | cancelled =>
    have hcancelled := h.isCancelled _ (Context.err_eq_cancelled_iff.mp hreason)
    exact ⟨.cancelled, Context.err_of_isCancelled hcancelled, Or.inl rfl⟩
  | deadlineExceeded =>
    obtain ⟨-, d, hd, hpast⟩ := Context.err_eq_deadlineExceeded_iff.mp hreason
    have hdone := Context.isDone_of_deadline hd (Nat.le_trans hpast h.now_le)
    obtain ⟨later, hlater⟩ := Option.isSome_iff_exists.mp hdone
    refine ⟨later, hlater, ?_⟩
    cases later with
    | deadlineExceeded => exact Or.inl rfl
    | cancelled => exact Or.inr ⟨rfl, rfl⟩

theorem reason_step_await (f : Family) (j patience : Nat) :
    (f.step (.await j patience)).2 = (f.step (.await j patience)).1.err j := by
  simp only [step, err]
  cases hc : f.members[j]? with
  | none => simp [hc]
  | some c =>
    simp only [members_await, hc, Option.bind_some]
    exact reason_await f c patience

/-- A context's deadline is the earliest of those that were asked for on the way to it, so that none
is derived with a later one; when a context is done, so are all that were derived from it, and when
it is cancelled, they are. Once done it stays so, and the reason changes at most from a missed
deadline to a cancellation. Who waits for a context is told its reason at that moment. -/
theorem deadlines_compose (steps : List Step) :
    (∀ j d, (grown steps).deadline j = some d ↔ IsLeast {d | Asks (origins steps) j d} d) ∧
    (∀ i j, Over Origin.copied? (origins steps) i j →
      (∀ d, (grown steps).deadline i = some d → ∃ d', (grown steps).deadline j = some d' ∧ d' ≤ d) ∧
      ((grown steps).err i ≠ none → (grown steps).err j ≠ none) ∧
      ((grown steps).err i = some .cancelled → (grown steps).err j = some .cancelled)) ∧
    (∀ more j reason, (grown steps).err j = some reason →
      ∃ later, (grown (steps ++ more)).err j = some later ∧
        (later = reason ∨ reason = .deadlineExceeded ∧ later = .cancelled)) ∧
    ∀ j patience, ((grown steps).step (.await j patience)).2 =
      (grown (steps ++ [.await j patience])).err j := by
  refine ⟨fun j d => (least_grown steps j).eq_some_iff d, ?_, ?_, ?_⟩
  · intro i j hover
    have hdeadline := fun d (hd : (grown steps).deadline i = some d) =>
      exists_deadline_le steps hover hd
    have hcancelled := cancelled_of_over steps hover.of_copied
    refine ⟨hdeadline, fun hdone => ?_, hcancelled⟩
    rcases err_ne_none_iff.mp hdone with hi | ⟨d, hd, hpast⟩
    · exact err_ne_none_iff.mpr (Or.inl (hcancelled hi))
    · obtain ⟨d', hd', hle⟩ := hdeadline d hd
      exact err_ne_none_iff.mpr (Or.inr ⟨d', hd', Nat.le_trans hle hpast⟩)
  · intro more j reason hreason
    have hlater : (grown steps).Later (grown (steps ++ more)) := by
      rw [grown, grown, after_append]
      exact later_after _ more
    exact hlater.err hreason
  · intro j patience
    rw [grown_concat]
    exact reason_step_await _ j patience

/-- A timeout below an earlier deadline adds nothing, nor does one that is over when no clock can
show it; the deadline passes, then someone cancels. -/
example :
    let f := grown [.background, .withDeadline 0 5, .withTimeout 1 9, .advance 7]
    let g := f.after [.cancel 1]
    let endless := Duration.clockEnd - Duration.second
    let late := grown [.background, .advance Duration.second, .withTimeout 0 endless]
    f.deadline 2 = some 5 ∧ f.err 0 = none ∧ f.err 2 = some .deadlineExceeded ∧
      g.err 2 = some .cancelled ∧ late.deadline 1 = none := by decide +kernel

end Family

end Retry
