import Retry.Text.Bytes

namespace Retry.Gzip

/-- The bytes that are left, and how many bits of the first one are used up. -/
structure Source where
  bytes : Bytes
  used : Nat := 0
  deriving DecidableEq, Repr

inductive Fault where
  /-- The data break a rule of the format. -/
  | corrupt
  /-- The data end too early. -/
  | truncated
  deriving DecidableEq, Repr

namespace Source

def left (s : Source) : Nat := 9 * s.bytes.length + (8 - s.used)

def bit (s : Source) : Except Fault (Nat × Source) :=
  match s.bytes with
  | [] => .error .truncated
  | b :: rest =>
    .ok (b.toNat >>> s.used % 2, if s.used < 7 then ⟨b :: rest, s.used + 1⟩ else ⟨rest, 0⟩)

/-- The next `count` bits as a number, the lowest first. -/
def bits : Nat → Source → Except Fault (Nat × Source)
  | 0, s => .ok (0, s)
  | count + 1, s =>
    match s.bit with
    | .error e => .error e
    | .ok (low, s) =>
      match bits count s with
      | .error e => .error e
      | .ok (high, s) => .ok (low + 2 * high, s)

def align (s : Source) : Source := if s.used = 0 then s else ⟨s.bytes.tail, 0⟩

theorem left_of_bit {s s' : Source} {b : Nat} (h : s.bit = .ok (b, s')) : s'.left < s.left := by
  unfold bit at h
  split at h
  · simp at h
  · rename_i c rest hs
    simp only [Except.ok.injEq, Prod.mk.injEq] at h
    obtain ⟨-, rfl⟩ := h
    simp only [left, hs, List.length_cons]
    split <;> simp only [List.length_cons] <;> omega

theorem left_of_bits {s s' : Source} {n v : Nat} (h : bits n s = .ok (v, s')) :
    s'.left ≤ s.left ∧ (0 < n → s'.left < s.left) := by
  induction n generalizing s v with
  | zero =>
    simp only [bits, Except.ok.injEq, Prod.mk.injEq] at h
    obtain ⟨-, rfl⟩ := h
    simp
  | succ n ih =>
    unfold bits at h
    split at h
    · simp at h
    · rename_i low s₁ h₁
      split at h
      · simp at h
      · rename_i high s₂ h₂
        simp only [Except.ok.injEq, Prod.mk.injEq] at h
        obtain ⟨-, rfl⟩ := h
        have := left_of_bit h₁
        have := (ih h₂).1
        omega

theorem left_of_bits_align {s s' : Source} {n v : Nat} (hn : 0 < n)
    (h : bits n s.align = .ok (v, s')) : s'.left < s.left := by
  have hlt := (left_of_bits h).2 hn
  by_cases hu : s.used = 0
  · simpa [align, hu] using hlt
  · cases hb : s.bytes with
    | nil =>
      cases n with
      | zero => omega
      | succ n => simp [align, hu, hb, bits, bit] at h
    | cons b rest =>
      simp only [align, hu, if_false, hb, List.tail_cons] at hlt
      simp only [left, hb, List.length_cons] at hlt ⊢
      omega

end Source

end Retry.Gzip
