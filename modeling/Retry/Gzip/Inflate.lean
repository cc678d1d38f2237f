import Retry.Gzip.Huffman

namespace Retry.Gzip

/-- What inflating gives: the output, and the source after the last block or why it stopped. What was
put out up to a fault is kept, since a reader may have taken it by then. -/
structure Inflated where
  output : Array UInt8
  ending : Except Fault Source

structure Codes where
  literals : Code
  distances : Code

namespace Inflate

def endOfBlock : Nat := 256

/-- The shortest length and the number of extra bits of the length symbols from 257 on. -/
def lengths : Array (Nat × Nat) := #[
  (3, 0), (4, 0), (5, 0), (6, 0), (7, 0), (8, 0), (9, 0), (10, 0), (11, 1), (13, 1), (15, 1),
  (17, 1), (19, 2), (23, 2), (27, 2), (31, 2), (35, 3), (43, 3), (51, 3), (59, 3), (67, 4), (83, 4),
  (99, 4), (115, 4), (131, 5), (163, 5), (195, 5), (227, 5), (258, 0)]

/-- The shortest distance and the number of extra bits of the distance symbols. -/
def distances : Array (Nat × Nat) := #[
  (1, 0), (2, 0), (3, 0), (4, 0), (5, 1), (7, 1), (9, 2), (13, 2), (17, 3), (25, 3), (33, 4),
  (49, 4), (65, 5), (97, 5), (129, 6), (193, 6), (257, 7), (385, 7), (513, 8), (769, 8), (1025, 9),
  (1537, 9), (2049, 10), (3073, 10), (4097, 11), (6145, 11), (8193, 12), (12289, 12), (16385, 13),
  (24577, 13)]

def fixed : Codes where
  literals := .ofLengths (List.replicate 144 8 ++ List.replicate 112 9 ++ List.replicate 24 7
    ++ List.replicate 8 8)
  distances := .ofLengths (List.replicate 32 5)

def extended (table : Array (Nat × Nat)) (row : Nat) (s : Source) : Except Fault (Nat × Source) :=
  match table[row]? with
  | none => .error .corrupt
  | some (least, extra) =>
    match s.bits extra with
    | .error e => .error e
    | .ok (more, s) => .ok (least + more, s)

/-- What a symbol stands for: the end of the block, a byte, or a copy from before. -/
inductive Item where
  | done
  | literal (b : UInt8)
  | copy (length distance : Nat)
  deriving DecidableEq, Repr

def item (c : Codes) (s : Source) : Except Fault (Item × Source) :=
  match c.literals.read s with
  | .error e => .error e
  | .ok (symbol, s) =>
    if symbol < endOfBlock then .ok (.literal (UInt8.ofNat symbol), s)
    else if symbol = endOfBlock then .ok (.done, s)
    else match extended lengths (symbol - endOfBlock - 1) s with
      | .error e => .error e
      | .ok (length, s) =>
        match c.distances.read s with
        | .error e => .error e
        | .ok (symbol, s) =>
          match extended distances symbol s with
          | .error e => .error e
          | .ok (distance, s) => .ok (.copy length distance, s)

/-- Repeat the byte `distance` back, `length` times; before the start there are zeros. -/
def copy (distance : Nat) : Nat → Array UInt8 → Array UInt8
  | 0, out => out
  | length + 1, out =>
    let b := if distance ≤ out.size then out.getD (out.size - distance) 0 else 0
    copy distance length (out.push b)

theorem left_of_extended {table : Array (Nat × Nat)} {row : Nat} {s s' : Source} {v : Nat}
    (h : extended table row s = .ok (v, s')) : s'.left ≤ s.left := by
  unfold extended at h
  split at h
  · simp at h
  · split at h
    · simp at h
    · rename_i h₁
      simp only [Except.ok.injEq, Prod.mk.injEq] at h
      obtain ⟨-, rfl⟩ := h
      exact (Source.left_of_bits h₁).1

theorem left_of_item {c : Codes} {s s' : Source} {i : Item} (h : item c s = .ok (i, s')) :
    s'.left < s.left := by
  unfold item at h
  split at h
  · simp at h
  · rename_i h₁
    have hr := Code.left_of_read h₁
    split at h
    · simp only [Except.ok.injEq, Prod.mk.injEq] at h
      obtain ⟨-, rfl⟩ := h
      exact hr
    · split at h
      · simp only [Except.ok.injEq, Prod.mk.injEq] at h
        obtain ⟨-, rfl⟩ := h
        exact hr
      · split at h
        · simp at h
        · rename_i h₂
          have := left_of_extended h₂
          split at h
          · simp at h
          · rename_i h₃
            have := Code.left_of_read h₃
            split at h
            · simp at h
            · rename_i h₄
              have := left_of_extended h₄
              simp only [Except.ok.injEq, Prod.mk.injEq] at h
              obtain ⟨-, rfl⟩ := h
              omega

def items (c : Codes) (s : Source) (out : Array UInt8) : Inflated :=
  match _ : item c s with
  | .error e => ⟨out, .error e⟩
  | .ok (.done, s) => ⟨out, .ok s⟩
  | .ok (.literal b, s) => items c s (out.push b)
  | .ok (.copy length distance, s) => items c s (copy distance length out)
termination_by s.left
decreasing_by all_goals exact left_of_item (by assumption)

theorem left_of_items {c : Codes} {s s' : Source} {out out' : Array UInt8}
    (h : items c s out = ⟨out', .ok s'⟩) : s'.left < s.left := by
  fun_induction items c s out with
  | case1 => simp at h
  | case2 s out s₁ h₁ =>
    simp only [Inflated.mk.injEq, Except.ok.injEq] at h
    obtain ⟨-, rfl⟩ := h
    exact left_of_item h₁
  | case3 s out b s₁ h₁ ih => exact Nat.lt_trans (ih h) (left_of_item h₁)
  | case4 s out length distance s₁ h₁ ih => exact Nat.lt_trans (ih h) (left_of_item h₁)

/-- A block of stored bytes: their number, its complement, and the bytes. -/
def stored (s : Source) (out : Array UInt8) : Inflated :=
  match s.align.bits 16 with
  | .error e => ⟨out, .error e⟩
  | .ok (length, s) =>
    match s.bits 16 with
    | .error e => ⟨out, .error e⟩
    | .ok (complement, s) =>
      if length + complement ≠ 1 <<< 16 - 1 then ⟨out, .error .corrupt⟩
      else if s.bytes.length < length then ⟨out ++ s.bytes.toArray, .error .truncated⟩
      else ⟨out ++ (s.bytes.take length).toArray, .ok { s with bytes := s.bytes.drop length }⟩

theorem left_of_stored {s s' : Source} {out out' : Array UInt8}
    (h : stored s out = ⟨out', .ok s'⟩) : s'.left < s.left := by
  unfold stored at h
  split at h
  · simp at h
  · rename_i length s₁ h₁
    have := Source.left_of_bits_align (by decide) h₁
    split at h
    · simp at h
    · rename_i complement s₂ h₂
      have := (Source.left_of_bits h₂).1
      split at h
      · simp at h
      · split at h
        · simp at h
        · simp only [Inflated.mk.injEq, Except.ok.injEq] at h
          obtain ⟨-, rfl⟩ := h
          simp only [Source.left, List.length_drop] at *
          omega

/-- The order in which the lengths of the code for lengths are given. -/
def lengthOrder : List Nat := [16, 17, 18, 0, 8, 7, 9, 6, 10, 5, 11, 4, 12, 3, 13, 2, 14, 1, 15]

def triples : Nat → Source → Except Fault (List Nat × Source)
  | 0, s => .ok ([], s)
  | count + 1, s =>
    match s.bits 3 with
    | .error e => .error e
    | .ok (v, s) =>
      match triples count s with
      | .error e => .error e
      | .ok (vs, s) => .ok (v :: vs, s)

theorem left_of_triples {n : Nat} {s s' : Source} {vs : List Nat}
    (h : triples n s = .ok (vs, s')) : s'.left ≤ s.left := by
  fun_induction triples n s generalizing vs with
  | case1 =>
    simp only [Except.ok.injEq, Prod.mk.injEq] at h
    obtain ⟨-, rfl⟩ := h
    exact Nat.le_refl _
  | case2 => simp at h
  | case3 => simp at h
  | case4 n s v s₁ h₁ ws s₂ h₂ ih =>
    simp only [Except.ok.injEq, Prod.mk.injEq] at h
    obtain ⟨-, rfl⟩ := h
    exact Nat.le_trans (ih h₂) (Source.left_of_bits h₁).1

/-- How many bits say how often a run repeats, and the least that it does. -/
def runShape (symbol : Nat) : Nat × Nat :=
  if symbol < 16 then (0, 1)
  else if symbol = 16 then (2, 3)
  else if symbol = 17 then (3, 3)
  else (7, 11)

/-- The length that a run repeats: its symbol, the length before it, or zero. -/
def runLength (symbol : Nat) (previous : Option Nat) : Except Fault Nat :=
  if symbol < 16 then .ok symbol
  else if symbol = 16 then
    match previous with
    | some length => .ok length
    | none => .error .corrupt
  else .ok 0

def run (c : Code) (previous : Option Nat) (s : Source) : Except Fault (List Nat × Source) :=
  match c.read s with
  | .error e => .error e
  | .ok (symbol, s) =>
    match runLength symbol previous with
    | .error e => .error e
    | .ok length =>
      match s.bits (runShape symbol).1 with
      | .error e => .error e
      | .ok (more, s) => .ok (List.replicate ((runShape symbol).2 + more) length, s)

theorem left_of_run {c : Code} {previous : Option Nat} {s s' : Source} {vs : List Nat}
    (h : run c previous s = .ok (vs, s')) : s'.left < s.left := by
  unfold run at h
  split at h
  · simp at h
  · rename_i symbol s₁ h₁
    have := Code.left_of_read h₁
    split at h
    · simp at h
    · split at h
      · simp at h
      · rename_i h₂
        have := (Source.left_of_bits h₂).1
        simp only [Except.ok.injEq, Prod.mk.injEq] at h
        obtain ⟨-, rfl⟩ := h
        omega

/-- Code lengths, the last one first, until there are `total`; a run must not go past that. -/
def codeLengths (c : Code) (total : Nat) (known : List Nat) (s : Source) :
    Except Fault (List Nat × Source) :=
  if known.length = total then .ok (known, s)
  else if total < known.length then .error .corrupt
  else match _ : run c known.head? s with
    | .error e => .error e
    | .ok (more, s) => codeLengths c total (more ++ known) s
termination_by s.left
decreasing_by exact left_of_run (by assumption)

theorem left_of_codeLengths {c : Code} {total : Nat} {known known' : List Nat} {s s' : Source}
    (h : codeLengths c total known s = .ok (known', s')) : s'.left ≤ s.left := by
  fun_induction codeLengths c total known s with
  | case1 =>
    simp only [Except.ok.injEq, Prod.mk.injEq] at h
    obtain ⟨-, rfl⟩ := h
    exact Nat.le_refl _
  | case2 => simp at h
  | case3 => simp at h
  | case4 known s _ _ more s₁ h₁ ih => exact Nat.le_trans (ih h) (Nat.le_of_lt (left_of_run h₁))

/-- The code for code lengths, given by lengths in their own order. -/
def lengthCode (given : List Nat) : Code :=
  .ofLengths ((List.range 19).map fun i => ((lengthOrder.zip given).lookup i).getD 0)

/-- The codes that a block with so many literal, distance and length codes brings along. -/
def codesOf (literals distances given : Nat) (s : Source) : Except Fault (Codes × Source) :=
  if 286 < literals || 30 < distances then .error .corrupt
  else match triples given s with
    | .error e => .error e
    | .ok (given, s) =>
      if !(lengthCode given).isComplete then .error .corrupt
      else match codeLengths (lengthCode given) (literals + distances) [] s with
        | .error e => .error e
        | .ok (known, s) =>
          let c : Codes :=
            ⟨.ofLengths (known.reverse.take literals), .ofLengths (known.reverse.drop literals)⟩
          if c.literals.isUsable && c.distances.isUsable then .ok (c, s) else .error .corrupt

theorem left_of_codesOf {l d g : Nat} {s s' : Source} {c : Codes}
    (h : codesOf l d g s = .ok (c, s')) : s'.left ≤ s.left := by
  unfold codesOf at h
  split at h
  · simp at h
  · split at h
    · simp at h
    · rename_i h₁
      have := left_of_triples h₁
      split at h
      · simp at h
      · split at h
        · simp at h
        · rename_i h₂
          have := left_of_codeLengths h₂
          simp only at h
          split at h
          · simp only [Except.ok.injEq, Prod.mk.injEq] at h
            obtain ⟨-, rfl⟩ := h
            omega
          · simp at h

def dynamic (s : Source) (out : Array UInt8) : Inflated :=
  match s.bits 14 with
  | .error e => ⟨out, .error e⟩
  | .ok (sizes, s) =>
    match codesOf (sizes % 32 + 257) (sizes / 32 % 32 + 1) (sizes / 1024 + 4) s with
    | .error e => ⟨out, .error e⟩
    | .ok (c, s) => items c s out

theorem left_of_dynamic {s s' : Source} {out out' : Array UInt8}
    (h : dynamic s out = ⟨out', .ok s'⟩) : s'.left < s.left := by
  unfold dynamic at h
  split at h
  · simp at h
  · rename_i h₁
    have := (Source.left_of_bits h₁).1
    split at h
    · simp at h
    · rename_i h₂
      have := left_of_codesOf h₂
      have := left_of_items h
      omega

def block (kind : Nat) (s : Source) (out : Array UInt8) : Inflated :=
  if kind = 0 then stored s out
  else if kind = 1 then items fixed s out
  else if kind = 2 then dynamic s out
  else ⟨out, .error .corrupt⟩

theorem left_of_block {kind : Nat} {s s' : Source} {out out' : Array UInt8}
    (h : block kind s out = ⟨out', .ok s'⟩) : s'.left < s.left := by
  unfold block at h
  split at h
  · exact left_of_stored h
  · split at h
    · exact left_of_items h
    · split at h
      · exact left_of_dynamic h
      · simp at h

def blocks (s : Source) (out : Array UInt8) : Inflated :=
  match _ : s.bits 3 with
  | .error e => ⟨out, .error e⟩
  | .ok (head, s₁) =>
    match _ : block (head / 2) s₁ out with
    | ⟨out, .error e⟩ => ⟨out, .error e⟩
    | ⟨out, .ok s₂⟩ => if head % 2 = 1 then ⟨out, .ok s₂⟩ else blocks s₂ out
termination_by s.left
decreasing_by
  exact Nat.lt_of_lt_of_le (left_of_block (by assumption)) (Source.left_of_bits (by assumption)).1

end Inflate

def inflate (b : Bytes) : Inflated := Inflate.blocks ⟨b, 0⟩ #[]

end Retry.Gzip
