import Retry.Gzip.Member

namespace Retry.Gzip

abbrev Reader (σ α : Type) := StateT σ (Except Fault) α

/-- What it is for more bytes to follow those that are left to a reader. -/
structure Growth (σ : Type) where
  grow : σ → σ
  /-- What is left is in order. -/
  Sound : σ → Prop
  size : σ → Nat
  /-- Where less than this is left, some of what follows is used. -/
  least : Nat

section Readers

variable {σ α β : Type} {g : Growth σ}

theorem bind_apply (f : Reader σ α) (k : α → Reader σ β) (s : σ) :
    (f >>= k) s = match f s with
      | .error e => .error e
      | .ok (v, s) => k v s := by
  change (f s).bind (fun p => k p.1 p.2) = _
  cases f s <;> rfl

theorem bind_run (f : Reader σ α) (k : α → Reader σ β) (s : σ) :
    (f >>= k) s = f s >>= fun p => k p.1 p.2 := rfl

theorem bind_eq_ok_iff {f : Reader σ α} {k : α → Reader σ β} {s t : σ} {w : β} :
    (f >>= k) s = .ok (w, t) ↔ ∃ v s', f s = .ok (v, s') ∧ k v s' = .ok (w, t) := by
  rw [bind_apply]
  rcases f s with e | ⟨v, s'⟩
  · exact ⟨nofun, by rintro ⟨_, _, h, -⟩; cases h⟩
  · constructor
    · exact fun h => ⟨v, s', rfl, h⟩
    · rintro ⟨v', s'', h, hk⟩
      obtain ⟨rfl, rfl⟩ := Prod.mk.inj (Except.ok.inj h)
      exact hk

theorem pure_apply (v : α) (s : σ) : (pure v : Reader σ α) s = .ok (v, s) := rfl

theorem ite_reader {c : Prop} [Decidable c] (f f' : Reader σ α) (s : σ) :
    (if c then f else f') s = if c then f s else f' s := by
  split <;> rfl

/-- What a reader gives, and what it gives if more bytes follow. -/
inductive Carries (g : Growth σ) : Except Fault (α × σ) → Except Fault (α × σ) → Prop where
  | value {v : α} {s : σ} (hsound : g.Sound s) : Carries g (.ok (v, s)) (.ok (v, g.grow s))
  | corrupt : Carries g (.error .corrupt) (.error .corrupt)
  | short {r : Except Fault (α × σ)} (hused : ∀ v s, r = .ok (v, s) → g.size s < g.least) :
      Carries g (.error .truncated) r

/-- A reader leaves no more than there was. -/
def Shrinks (g : Growth σ) (f : Reader σ α) : Prop :=
  ∀ s v s', f s = .ok (v, s') → g.size s' ≤ g.size s

structure Steady (g : Growth σ) (f : Reader σ α) : Prop where
  shrinks : Shrinks g f
  carries : ∀ s, g.Sound s → Carries g (f s) (f (g.grow s))

theorem Shrinks.bind {f : Reader σ α} {k : α → Reader σ β} (hf : Shrinks g f)
    (hk : ∀ v, Shrinks g (k v)) : Shrinks g (f >>= k) := by
  intro s w s' h
  rw [bind_apply] at h
  cases hr : f s with
  | error e =>
    rw [hr] at h
    cases h
  | ok p =>
    rw [hr] at h
    exact Nat.le_trans (hk p.1 p.2 w s' h) (hf s p.1 p.2 hr)

theorem Carries.sound {v : α} {s : σ} {r : Except Fault (α × σ)} (h : Carries g (.ok (v, s)) r) :
    g.Sound s := by
  cases h with
  | value hsound => exact hsound

/-- What is read on goes on as it would have, if only it does so from where it goes on. -/
theorem Carries.bind {s s' : σ} {f : Reader σ α} {k : α → Reader σ β} (h : Carries g (f s) (f s'))
    (hk : ∀ v t, f s = .ok (v, t) → g.Sound t → Carries g (k v t) (k v (g.grow t)))
    (hshrinks : ∀ v, Shrinks g (k v)) : Carries g ((f >>= k) s) ((f >>= k) s') := by
  rw [bind_apply, bind_apply]
  generalize f s = r, f s' = r' at h hk
  cases h with
  | value hsound => exact hk _ _ rfl hsound
  | corrupt => exact .corrupt
  | short hused =>
    refine .short fun w t ht => ?_
    cases r' with
    | error e => cases ht
    | ok p => exact Nat.lt_of_le_of_lt (hshrinks p.1 p.2 w t ht) (hused p.1 p.2 rfl)

namespace Steady

theorem pure (v : α) : Steady g (Pure.pure v : Reader σ α) where
  shrinks s w s' h := by
    obtain ⟨-, rfl⟩ := Prod.mk.inj (Except.ok.inj h)
    exact Nat.le_refl _
  carries _ hs := .value hs

theorem corrupt : Steady g (throw .corrupt : Reader σ α) where
  shrinks s w s' h := by cases h
  carries _ _ := .corrupt

theorem bind {f : Reader σ α} {k : α → Reader σ β} (hf : Steady g f) (hk : ∀ v, Steady g (k v)) :
    Steady g (f >>= k) where
  shrinks := hf.shrinks.bind fun v => (hk v).shrinks
  carries s hs := (hf.carries s hs).bind (fun v t _ ht => (hk v).carries t ht)
    fun v => (hk v).shrinks

theorem ite {c : Prop} [Decidable c] {f f' : Reader σ α} (h : Steady g f) (h' : Steady g f') :
    Steady g (if c then f else f') := by
  split
  · exact h
  · exact h'

/-- Readers that read on with one another are steady if each is from where there is less left, since
there is less each time. -/
theorem of_smaller {ι : Type} {f : ι → Reader σ α} (hshrinks : ∀ i, Shrinks g (f i))
    (hstep : ∀ i s, g.Sound s →
      (∀ j t, g.size t < g.size s → g.Sound t → Carries g (f j t) (f j (g.grow t))) →
        Carries g (f i s) (f i (g.grow s))) (i : ι) : Steady g (f i) := by
  refine ⟨hshrinks i, fun s hs => ?_⟩
  induction hsize : g.size s using Nat.strongRecOn generalizing i s with
  | ind n ih =>
    subst hsize
    exact hstep i s hs fun j t hless ht => ih (g.size t) hless j t ht rfl

end Steady

end Readers

/-- More bytes follow those that there are. -/
def Growth.bytes (more : Bytes) : Growth Bytes where
  grow b := b ++ more
  Sound _ := True
  size := List.length
  least := more.length

section Bytes

variable {more : Bytes}

theorem steady_take (count : Nat) : Steady (Growth.bytes more) (take count) where
  shrinks b v rest h := by
    unfold take at h
    split at h
    · cases h
    · obtain ⟨-, rfl⟩ := Prod.mk.inj (Except.ok.inj h)
      simp only [Growth.bytes, List.length_drop]
      omega
  carries b _ := by
    have hlength : (b ++ more).length = b.length + more.length := List.length_append
    by_cases hshort : b.length < count
    · rw [take, if_pos hshort]
      refine .short fun v rest h => ?_
      unfold take at h
      split at h
      · cases h
      · next hlong =>
        obtain ⟨-, rfl⟩ := Prod.mk.inj (Except.ok.inj h)
        simp only [Growth.bytes, List.length_drop] at hlong ⊢
        omega
    · have hle : count ≤ b.length := Nat.le_of_not_lt hshort
      have hlong : ¬ (b ++ more).length < count := by omega
      have hgrown : take count ((Growth.bytes more).grow b) =
          .ok (b.take count, (Growth.bytes more).grow (b.drop count)) := by
        simp only [take, Growth.bytes, hlong, if_false, List.take_append_of_le_length hle,
          List.drop_append_of_le_length hle]
      rw [hgrown, take, if_neg hshort]
      exact .value trivial

end Bytes

namespace Source

/-- More bytes follow the source. -/
def growth (more : Bytes) : Growth Source where
  grow s := { s with bytes := s.bytes ++ more }
  Sound s := s.bytes = [] → s.used = 0
  size := left
  least := 9 * more.length + 8

variable {more : Bytes}

theorem steady_bit : Steady (growth more) bit where
  shrinks s v s' h := Nat.le_of_lt (left_of_bit h)
  carries s hs := by
    obtain ⟨bytes, used⟩ := s
    cases bytes with
    | nil =>
      obtain rfl : used = 0 := hs rfl
      exact .short fun v s' h => left_of_bit h
    | cons b rest =>
      have hnext : (if used < 7 then ⟨b :: (rest ++ more), used + 1⟩ else ⟨rest ++ more, 0⟩) =
          (growth more).grow (if used < 7 then ⟨b :: rest, used + 1⟩ else ⟨rest, 0⟩) := by
        split <;> rfl
      have hgrown : bit ((growth more).grow ⟨b :: rest, used⟩) = .ok (b.toNat >>> used % 2,
          (growth more).grow (if used < 7 then ⟨b :: rest, used + 1⟩ else ⟨rest, 0⟩)) := by
        rw [← hnext]
        rfl
      rw [hgrown]
      refine .value ?_
      by_cases hinside : used < 7
      · rw [if_pos hinside]
        exact nofun
      · rw [if_neg hinside]
        exact fun _ => rfl

theorem bits_succ (n : Nat) : bits (n + 1) = (do
    let low ← bit
    let high ← bits n
    return low + 2 * high : Reader Source Nat) := by
  funext s
  simp only [bits, bind_apply, pure_apply]
  rcases s.bit with e | ⟨low, s⟩
  · rfl
  · dsimp only
    rcases bits n s with e | ⟨high, s⟩ <;> rfl

theorem steady_bits (n : Nat) : Steady (growth more) (bits n) := by
  induction n with
  | zero => exact .pure 0
  | succ n ih =>
    rw [bits_succ]
    exact steady_bit.bind fun low => ih.bind fun high => .pure _

theorem used_align (s : Source) : s.align.used = 0 := by
  by_cases haligned : s.used = 0
  · rw [align, if_pos haligned]
    exact haligned
  · rw [align, if_neg haligned]

theorem align_grow {s : Source} (hs : (growth more).Sound s) :
    ((growth more).grow s).align = (growth more).grow s.align := by
  obtain ⟨bytes, used⟩ := s
  cases bytes with
  | nil =>
    obtain rfl : used = 0 := hs rfl
    rfl
  | cons b rest =>
    by_cases haligned : used = 0
    · simp only [growth, align, haligned, if_true]
    · simp only [growth, align, haligned, if_false, List.cons_append, List.tail_cons]

theorem length_align_le (s : Source) : 9 * s.align.bytes.length ≤ s.left := by
  unfold align left
  split
  · omega
  · rw [List.length_tail]
    omega

theorem length_align_lt {s : Source} (hs : (growth more).Sound s) :
    9 * s.align.bytes.length + 8 ≤ s.left := by
  unfold align left
  split
  · next haligned => simp only [haligned]; omega
  · next hinside =>
    have hpos : 0 < s.bytes.length := List.length_pos_iff.mpr fun hnil => hinside (hs hnil)
    rw [List.length_tail]
    omega

theorem steady_bits_align {n : Nat} (hn : 0 < n) :
    Steady (growth more) (fun s => bits n s.align) where
  shrinks s v s' h := Nat.le_of_lt (left_of_bits_align hn h)
  carries s hs := by
    have hcarries := (@steady_bits more n).carries s.align fun _ => used_align s
    rwa [← align_grow hs] at hcarries

theorem used_of_bit {s s' : Source} {v : Nat} (h : s.bit = .ok (v, s')) (hs : s.used < 8) :
    s'.used = (s.used + 1) % 8 := by
  unfold bit at h
  split at h
  · cases h
  · obtain ⟨-, rfl⟩ := Prod.mk.inj (Except.ok.inj h)
    split
    · change s.used + 1 = (s.used + 1) % 8
      omega
    · change 0 = (s.used + 1) % 8
      omega

theorem used_of_bits {n : Nat} {s s' : Source} {v : Nat} (h : bits n s = .ok (v, s'))
    (hs : s.used < 8) : s'.used = (s.used + n) % 8 := by
  induction n generalizing s v with
  | zero =>
    obtain ⟨-, rfl⟩ := Prod.mk.inj (Except.ok.inj h)
    exact (Nat.mod_eq_of_lt hs).symm
  | succ n ih =>
    unfold bits at h
    split at h
    · cases h
    · next low s₁ h₁ =>
      have hused := used_of_bit h₁ hs
      split at h
      · cases h
      · next high s₂ h₂ =>
        obtain ⟨-, rfl⟩ := Prod.mk.inj (Except.ok.inj h)
        rw [ih h₂ (by omega), hused]
        omega

/-- The next bytes, where a byte begins. -/
def bytesOf (count : Nat) : Reader Source Bytes := fun s =>
  (take count s.bytes).map fun p => (p.1, { s with bytes := p.2 })

theorem shrinks_bytesOf (count : Nat) : Shrinks (growth more) (bytesOf count) := by
  intro s v s' h
  unfold bytesOf at h
  cases htake : take count s.bytes with
  | error e =>
    rw [htake] at h
    cases h
  | ok p =>
    rw [htake] at h
    obtain ⟨-, rfl⟩ := Prod.mk.inj (Except.ok.inj h)
    have hle : p.2.length ≤ s.bytes.length := (@steady_take more count).shrinks _ _ _ htake
    simp only [growth, left]
    omega

theorem carries_bytesOf (count : Nat) {s : Source} (hs : s.used = 0) :
    Carries (growth more) (bytesOf count s) (bytesOf count ((growth more).grow s)) := by
  have hcarries := (@steady_take more count).carries s.bytes trivial
  have hgrown : (Growth.bytes more).grow s.bytes = ((growth more).grow s).bytes := rfl
  rw [hgrown] at hcarries
  unfold bytesOf
  generalize take count s.bytes = r, take count ((growth more).grow s).bytes = r' at hcarries ⊢
  cases hcarries with
  | value => exact .value fun _ => hs
  | corrupt => exact .corrupt
  | short hused =>
    refine .short fun v t h => ?_
    cases r' with
    | error e => cases h
    | ok p =>
      obtain ⟨-, rfl⟩ := Prod.mk.inj (Except.ok.inj h)
      have hless : p.2.length < more.length := hused p.1 p.2 rfl
      simp only [growth, left, hs]
      omega

end Source

end Retry.Gzip
