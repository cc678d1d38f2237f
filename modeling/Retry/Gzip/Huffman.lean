import Retry.Gzip.Bits

namespace Retry.Gzip

/-- How many symbols have codes of 1, 2, … 15 bits, and the symbols in the order of their codes. -/
structure Code where
  counts : List Nat
  symbols : Array Nat
  deriving DecidableEq, Repr

namespace Code

def longest : Nat := 15

def sizes : List Nat := List.range' 1 longest

/-- The code in which symbol `i` has `lengths[i]` bits, or none for zero bits. -/
def ofLengths (lengths : List Nat) : Code where
  counts := sizes.map fun n => lengths.count n
  symbols := (sizes.flatMap fun n =>
    (lengths.zipIdx.filter fun p => p.1 = n).map (·.2)).toArray

/-- Bit strings of the longest size that start with a code. -/
def taken (counts : List Nat) : Nat := counts.foldl (fun sum count => 2 * (sum + count)) 0

def size (c : Code) : Nat := c.symbols.size

/-- Every bit string starts with exactly one code. -/
def isComplete (c : Code) : Bool := taken c.counts = 1 <<< (longest + 1)

/-- Codes are complete, except that one symbol alone, or none, needs no more. -/
def isUsable (c : Code) : Bool := c.isComplete || c.size ≤ 1

/-- Read on while there are codes of more bits: `code` is read so far, and the codes of its size
start at `first` and belong to the symbols from `index` on. -/
def readFrom (symbols : Array Nat) :
    List Nat → (code first index : Nat) → Source → Except Fault (Nat × Source)
  | [], _, _, _, _ => .error .corrupt
  | count :: counts, code, first, index, s =>
    match s.bit with
    | .error e => .error e
    | .ok (b, s) =>
      let code := code + b
      if code < first + count then
        match symbols[index + (code - first)]? with
        | some symbol => .ok (symbol, s)
        | none => .error .corrupt
      else readFrom symbols counts (2 * code) (2 * (first + count)) (index + count) s

def read (c : Code) (s : Source) : Except Fault (Nat × Source) :=
  readFrom c.symbols c.counts 0 0 0 s

theorem left_of_readFrom {symbols : Array Nat} {counts : List Nat} {code first index : Nat}
    {s s' : Source} {v : Nat}
    (h : readFrom symbols counts code first index s = .ok (v, s')) : s'.left < s.left := by
  induction counts generalizing code first index s with
  | nil => simp [readFrom] at h
  | cons count counts ih =>
    unfold readFrom at h
    split at h
    · simp at h
    · rename_i b s₁ h₁
      have hb := Source.left_of_bit h₁
      simp only at h
      split at h
      · split at h
        · simp only [Except.ok.injEq, Prod.mk.injEq] at h
          obtain ⟨-, rfl⟩ := h
          exact hb
        · simp at h
      · exact Nat.lt_trans (ih h) hb

theorem left_of_read {c : Code} {s s' : Source} {v : Nat} (h : c.read s = .ok (v, s')) :
    s'.left < s.left := left_of_readFrom h

end Code

end Retry.Gzip
