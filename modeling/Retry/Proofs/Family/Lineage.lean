import Retry.Proofs.Family.Steps

namespace Retry

namespace Family

inductive Origin where
  | root
  /-- Derived from an earlier context, with a deadline asked for or none. -/
  | below (of : Nat) (asked : Option Nat)
  | copy (of : Nat)
  /-- Made of the token of an earlier context alone. -/
  | bare (of : Nat)
  deriving DecidableEq, Repr

namespace Origin

/-- The earlier context whose token is shared. -/
def twin? : Origin → Option Nat
  | copy of | bare of => some of
  | root | below .. => none

/-- The earlier context that is copied with its deadline. -/
def copied? : Origin → Option Nat
  | copy of => some of
  | root | below .. | bare _ => none

theorem twin_of_copied {o : Origin} {k : Nat} (h : o.copied? = some k) : o.twin? = some k := by
  cases o with
  | copy => exact h
  | root | below | bare => cases h

end Origin

/-- `o`, if the family has the context that it speaks of. -/
def origin (f : Family) (of : Nat) (o : Origin) : Option Origin :=
  if of < f.members.length then some o else none

/-- The origin of the context that a step makes, if it makes one. A deadline is asked for with a
moment, or with a timeout, where a clock can show the moment that it ends at. -/
def origin? (f : Family) : Step → Option Origin
  | .background => some .root
  | .child of => f.origin of (.below of none)
  | .withTimeout of timeout =>
    f.origin of (.below of
      (if Duration.Shown (f.line.now + timeout) then some (f.line.now + timeout) else none))
  | .withDeadline of deadline => f.origin of (.below of (some deadline))
  | .copy of => f.origin of (.copy of)
  | .ofToken of => f.origin of (.bare of)
  | .cancel _ | .cancelAt .. | .advance _ | .await .. => none

/-- The origins of the contexts that steps make, in the order in which they are made. -/
def originsFrom (f : Family) : List Step → List Origin
  | [] => []
  | s :: rest => (f.origin? s).toList ++ (f.step s).1.originsFrom rest

def origins (steps : List Step) : List Origin := ({} : Family).originsFrom steps

/-- Context `i` stands over context `j`: it is `j`, or over what `j` is a twin of or was derived
from, or it is itself a twin of what stands over `j`. -/
inductive Over (twin? : Origin → Option Nat) (os : List Origin) : Nat → Nat → Prop where
  | self {i : Nat} (hi : i < os.length) : Over twin? os i i
  | twin {i j k : Nat} {o : Origin} (ho : os[j]? = some o) (ht : twin? o = some k)
      (h : Over twin? os i k) : Over twin? os i j
  | ofTwin {i j k : Nat} {o : Origin} (ho : os[i]? = some o) (ht : twin? o = some k)
      (h : Over twin? os k j) : Over twin? os i j
  | derived {i j k : Nat} {asked : Option Nat} (ho : os[j]? = some (.below k asked))
      (h : Over twin? os i k) : Over twin? os i j

theorem Over.right_lt {twin? : Origin → Option Nat} {os : List Origin} {i j : Nat}
    (h : Over twin? os i j) : j < os.length := by
  induction h with
  | self hi => exact hi
  | ofTwin ho ht h ih => exact ih
  | twin ho ht h ih | derived ho h ih => exact (List.getElem?_eq_some_iff.mp ho).1

/-- What stands over a context and its deadline, stands over its token. -/
theorem Over.of_copied {os : List Origin} {i j : Nat} (h : Over Origin.copied? os i j) :
    Over Origin.twin? os i j := by
  induction h with
  | self hi => exact .self hi
  | twin ho ht h ih => exact .twin ho (Origin.twin_of_copied ht) ih
  | ofTwin ho ht h ih => exact .ofTwin ho (Origin.twin_of_copied ht) ih
  | derived ho h ih => exact .derived ho ih

section Steps

variable (f : Family) (steps : List Step) (s : Step)

theorem originsFrom_concat :
    f.originsFrom (steps ++ [s]) = f.originsFrom steps ++ ((f.after steps).origin? s).toList := by
  induction steps generalizing f with
  | nil => simp [originsFrom, after]
  | cons first rest ih =>
    simp only [List.cons_append, originsFrom, ih, List.append_assoc]
    rfl

theorem origins_concat :
    origins (steps ++ [s]) = origins steps ++ ((grown steps).origin? s).toList :=
  originsFrom_concat {} steps s

end Steps

/-- A number that no token of these contexts has. -/
def Fresh (contexts : List Context) (n : Nat) : Prop :=
  ∀ c ∈ contexts, ∀ k ∈ c.token.path, k < n

/-- The deadline below `c`, given what was asked for. -/
def within (c : Context) : Option Nat → Option Nat
  | some deadline => some (Context.earlier c.deadline deadline)
  | none => c.deadline

/-- A context that is made after others as its origin says. -/
inductive Fits (earlier : List Context) : Origin → Context → Prop where
  | root {n : Nat} (hn : Fresh earlier n) : Fits earlier .root { token := .root n }
  | below {k n : Nat} {parent : Context} {asked : Option Nat} (hk : earlier[k]? = some parent)
      (hn : Fresh earlier n) :
      Fits earlier (.below k asked) ⟨parent.token.child n, within parent asked⟩
  | copy {k : Nat} {c : Context} (hk : earlier[k]? = some c) : Fits earlier (.copy k) c
  | bare {k : Nat} {parent : Context} (hk : earlier[k]? = some parent) :
      Fits earlier (.bare k) { token := parent.token }

/-- What becomes of a family with a step that makes a context of this origin, or none. -/
inductive Grows (f : Family) : Option Origin → Family → Prop where
  | same {g : Family} (hmembers : g.members = f.members) (hissued : g.line.issued = f.line.issued) :
      Grows f none g
  | made {g : Family} {o : Origin} {c : Context} (hmembers : g.members = f.members ++ [c])
      (hfits : Fits f.members o c) (hissued : f.line.issued ≤ g.line.issued)
      (hpath : ∀ k ∈ c.token.path, k < g.line.issued) : Grows f (some o) g

theorem grows_extend {f : Family} (of : Nat) (o : Origin)
    (derive : Context → Timeline → Context × Timeline)
    (h : ∀ c, f.members[of]? = some c → Fits f.members o (derive c f.line).1 ∧
      f.line.issued ≤ (derive c f.line).2.issued ∧
      ∀ k ∈ (derive c f.line).1.token.path, k < (derive c f.line).2.issued) :
    Grows f (f.origin of o) (f.extend of derive) := by
  unfold origin extend
  cases hc : f.members[of]? with
  | none =>
    have hout := List.getElem?_eq_none_iff.mp hc
    simp only [if_neg (Nat.not_lt.mpr hout)]
    exact .same rfl rfl
  | some c =>
    obtain ⟨hfits, hissued, hpath⟩ := h c hc
    simp only [if_pos (List.getElem?_eq_some_iff.mp hc).1]
    exact .made rfl hfits hissued hpath

theorem grows_below {f : Family} (hf : Fresh f.members f.line.issued) (of : Nat)
    (asked : Option Nat) (derive : Context → Timeline → Context × Timeline)
    (h : ∀ c, derive c f.line = (⟨c.token.child f.line.issued, within c asked⟩,
      { f.line with issued := f.line.issued + 1 })) :
    Grows f (f.origin of (.below of asked)) (f.extend of derive) := by
  refine grows_extend of (.below of asked) derive fun c hc => ?_
  rw [h c]
  refine ⟨.below hc hf, Nat.le_succ _, fun k hk => ?_⟩
  rcases List.mem_cons.mp hk with rfl | hk
  · exact Nat.lt_succ_self _
  · exact Nat.lt_succ_of_lt (hf c (List.mem_of_getElem? hc) k hk)

/-- A step makes a context of the origin that it is said to, or none. -/
theorem grows_step {f : Family} (hf : Fresh f.members f.line.issued) (s : Step) :
    Grows f (f.origin? s) (f.step s).1 := by
  cases s with
  | background =>
    refine .made rfl (.root hf) (Nat.le_succ _) fun k hk => ?_
    rw [List.mem_singleton.mp hk]
    exact Nat.lt_succ_self _
  | child of => exact grows_below hf of none Context.child fun c => rfl
  | withDeadline of deadline =>
    exact grows_below hf of (some deadline) (fun c l => c.withDeadline deadline l) fun c => rfl
  | withTimeout of timeout =>
    refine grows_below hf of _ (fun c l => c.withTimeout timeout l) fun c => ?_
    unfold Context.withTimeout
    by_cases hshown : Duration.Shown (f.line.now + timeout)
    · rw [Duration.later?_of_shown hshown, if_pos hshown]
      rfl
    · rw [Duration.later?_of_not_shown hshown, if_neg hshown]
      rfl
  | copy of =>
    exact grows_extend of (.copy of) (fun c l => (c, l)) fun c hc =>
      ⟨.copy hc, Nat.le_refl _, hf c (List.mem_of_getElem? hc)⟩
  | ofToken of =>
    exact grows_extend of (.bare of) (fun c l => ({ token := c.token }, l)) fun c hc =>
      ⟨.bare hc, Nat.le_refl _, hf c (List.mem_of_getElem? hc)⟩
  | advance => exact .same rfl rfl
  | cancel of | cancelAt of | await of =>
    simp only [step, origin?]
    cases f.members[of]? with
    | none => exact .same rfl rfl
    | some c =>
      simp only [await]
      repeat' split
      all_goals exact .same rfl rfl

/-- Contexts made one after another, each as its origin says. -/
inductive Lineage : List Origin → List Context → Prop where
  | nil : Lineage [] []
  | concat {os : List Origin} {cs : List Context} {o : Origin} {c : Context} (h : Lineage os cs)
      (hfits : Fits cs o c) : Lineage (os ++ [o]) (cs ++ [c])

theorem lineage_grown (steps : List Step) : Lineage (origins steps) (grown steps).members ∧
    Fresh (grown steps).members (grown steps).line.issued := by
  induction steps using List.reverseRecOn with
  | nil => exact ⟨.nil, nofun⟩
  | append_singleton steps s ih =>
    obtain ⟨hlineage, hfresh⟩ := ih
    have hgrows := grows_step hfresh s
    rw [origins_concat, grown_concat]
    generalize (grown steps).origin? s = o? at hgrows
    generalize ((grown steps).step s).1 = g at hgrows
    cases hgrows with
    | same hmembers hissued =>
      rw [hmembers, hissued, Option.toList_none, List.append_nil]
      exact ⟨hlineage, hfresh⟩
    | made hmembers hfits hissued hpath =>
      rw [hmembers, Option.toList_some]
      refine ⟨hlineage.concat hfits, fun c hc k hk => ?_⟩
      rcases List.mem_append.mp hc with hc | hc
      · exact Nat.lt_of_lt_of_le (hfresh c hc k hk) hissued
      · exact hpath k (List.mem_singleton.mp hc ▸ hk)

theorem getElem?_of_take {cs : List Context} {j k : Nat} {c : Context}
    (h : (cs.take j)[k]? = some c) : k < j ∧ cs[k]? = some c := by
  rw [List.getElem?_take] at h
  split at h
  · next hlt => exact ⟨hlt, h⟩
  · cases h

namespace Lineage

variable {os : List Origin} {cs : List Context} {i j : Nat} {c d : Context}

theorem length_eq (h : Lineage os cs) : cs.length = os.length := by
  induction h with
  | nil => rfl
  | concat h hfits ih => simp only [List.length_append, List.length_singleton, ih]

/-- Each context fits its origin among those before it. -/
theorem fits (h : Lineage os cs) {o : Origin} (ho : os[j]? = some o) (hc : cs[j]? = some c) :
    Fits (cs.take j) o c := by
  induction h with
  | nil => cases ho
  | @concat os cs o' c' h hfits ih =>
    have hlength := h.length_eq
    rcases Nat.lt_trichotomy j os.length with hlt | rfl | hgt
    · rw [List.getElem?_append_left hlt] at ho
      rw [List.getElem?_append_left (hlength ▸ hlt)] at hc
      rw [List.take_append_of_le_length (by omega)]
      exact ih ho hc
    · rw [List.getElem?_concat_length] at ho
      rw [← hlength, List.getElem?_concat_length] at hc
      cases ho
      cases hc
      rwa [← hlength, List.take_append_of_le_length (Nat.le_refl _), List.take_length]
    · rw [List.getElem?_eq_none (by simp only [List.length_append, List.length_singleton]; omega)]
        at ho
      cases ho

theorem exists_origin (h : Lineage os cs) (hc : cs[j]? = some c) : ∃ o, os[j]? = some o := by
  have hj := (List.getElem?_eq_some_iff.mp hc).1
  exact ⟨os.get ⟨j, h.length_eq ▸ hj⟩, List.getElem?_eq_getElem _⟩

theorem exists_context (h : Lineage os cs) (hj : j < os.length) : ∃ c, cs[j]? = some c :=
  ⟨cs.get ⟨j, h.length_eq ▸ hj⟩, List.getElem?_eq_getElem _⟩

/-- A context has the token of its twin, which was made before it. -/
theorem twin (h : Lineage os cs) {o : Origin} {k : Nat} (ho : os[j]? = some o)
    (ht : o.twin? = some k) (hd : cs[j]? = some d) :
    ∃ e, cs[k]? = some e ∧ k < j ∧ e.token = d.token := by
  have hfits := h.fits ho hd
  cases hfits with
  | root | below => cases ht
  | copy hk | bare hk =>
    cases ht
    obtain ⟨hlt, he⟩ := getElem?_of_take hk
    exact ⟨_, he, hlt, rfl⟩

/-- The token of a context that is no twin begins with a number that none before it has, and goes on
with the token of the context that it was derived from, if there is one. -/
theorem original (h : Lineage os cs) {o : Origin} (ho : os[j]? = some o) (ht : o.twin? = none)
    (hd : cs[j]? = some d) : ∃ n up, d.token.path = n :: up ∧ Fresh (cs.take j) n ∧ (up = [] ∨
      ∃ k asked e, o = .below k asked ∧ cs[k]? = some e ∧ k < j ∧ e.token.path = up) := by
  have hfits := h.fits ho hd
  cases hfits with
  | copy | bare => cases ht
  | root hn => exact ⟨_, [], rfl, hn, Or.inl rfl⟩
  | below hk hn =>
    obtain ⟨hlt, he⟩ := getElem?_of_take hk
    exact ⟨_, _, rfl, hn, Or.inr ⟨_, _, _, rfl, he, hlt, rfl⟩⟩

theorem covers_of_over (h : Lineage os cs) (hover : Over Origin.twin? os i j)
    (hc : cs[i]? = some c) (hd : cs[j]? = some d) : c.token.covers d.token = true := by
  induction hover generalizing c d with
  | self hi =>
    rw [hc] at hd
    cases hd
    exact c.token.covers_refl
  | twin ho ht hover ih =>
    obtain ⟨e, he, -, htoken⟩ := h.twin ho ht hd
    exact htoken ▸ ih hc he
  | ofTwin ho ht hover ih =>
    obtain ⟨e, he, -, htoken⟩ := h.twin ho ht hc
    exact htoken ▸ ih he hd
  | derived ho hover ih =>
    have hfits := h.fits ho hd
    cases hfits with
    | below hk hn =>
      exact Token.covers_trans (ih hc (getElem?_of_take hk).2) (Token.covers_child _ _)

/-- Two contexts that are no twins have one token only if they are one. -/
theorem eq_of_path_eq (h : Lineage os cs) {o o' : Origin} (ho : os[i]? = some o)
    (ht : o.twin? = none) (ho' : os[j]? = some o') (ht' : o'.twin? = none) (hc : cs[i]? = some c)
    (hd : cs[j]? = some d) (hpath : c.token.path = d.token.path) : i = j := by
  obtain ⟨n, up, hn, hfresh, -⟩ := h.original ho ht hc
  obtain ⟨m, up', hm, hfresh', -⟩ := h.original ho' ht' hd
  have hnm : n = m := by
    rw [hn, hm] at hpath
    exact (List.cons.inj hpath).1
  rcases Nat.lt_trichotomy i j with hlt | heq | hgt
  · have hmem : c ∈ cs.take j := List.mem_of_getElem? (by rwa [List.getElem?_take_of_lt hlt])
    have hless := hfresh' c hmem n (hn ▸ List.mem_cons_self)
    omega
  · exact heq
  · have hmem : d ∈ cs.take i := List.mem_of_getElem? (by rwa [List.getElem?_take_of_lt hgt])
    have hless := hfresh d hmem m (hm ▸ List.mem_cons_self)
    omega

theorem over_of_covers (h : Lineage os cs) (hc : cs[i]? = some c) (hd : cs[j]? = some d)
    (hcovers : c.token.covers d.token = true) : Over Origin.twin? os i j := by
  -- Each rule goes back from one of the two contexts to one that was made before it.
  induction htotal : i + j using Nat.strongRecOn generalizing i j c d with
  | ind total ih =>
    obtain ⟨o, ho⟩ := h.exists_origin hc
    obtain ⟨o', ho'⟩ := h.exists_origin hd
    cases ht' : o'.twin? with
    | some k =>
      obtain ⟨e, he, hk, htoken⟩ := h.twin ho' ht' hd
      exact .twin ho' ht' (ih (i + k) (by omega) hc he (htoken ▸ hcovers) rfl)
    | none =>
      cases ht : o.twin? with
      | some k =>
        obtain ⟨e, he, hk, htoken⟩ := h.twin ho ht hc
        exact .ofTwin ho ht (ih (k + j) (by omega) he hd (htoken ▸ hcovers) rfl)
      | none =>
        obtain ⟨n, up, hpath, -, hup⟩ := h.original ho' ht' hd
        have hsuffix := Token.covers_iff.mp hcovers
        rw [hpath] at hsuffix
        rcases List.suffix_cons_iff.mp hsuffix with heq | habove
        · rw [← hpath] at heq
          obtain rfl := h.eq_of_path_eq ho ht ho' ht' hc hd heq
          exact .self (List.getElem?_eq_some_iff.mp ho).1
        · rcases hup with rfl | ⟨k, asked, e, rfl, he, hk, rfl⟩
          · obtain ⟨m, up', hm, -⟩ := h.original ho ht hc
            rw [List.suffix_nil.mp habove] at hm
            cases hm
          · exact .derived ho' (ih (i + k) (by omega) hc he (Token.covers_iff.mpr habove) rfl)

end Lineage

theorem cancelled_of_over (steps : List Step) {i j : Nat}
    (hover : Over Origin.twin? (origins steps) i j) (hi : (grown steps).err i = some .cancelled) :
    (grown steps).err j = some .cancelled := by
  have hlineage := (lineage_grown steps).1
  obtain ⟨c, hc, hcancelled⟩ := err_eq_cancelled_iff.mp hi
  obtain ⟨d, hd⟩ := hlineage.exists_context hover.right_lt
  have hcovers := hlineage.covers_of_over hover hc hd
  exact err_eq_cancelled_iff.mpr ⟨d, hd, Timeline.isCancelled_of_covers hcancelled hcovers⟩

end Family

end Retry
