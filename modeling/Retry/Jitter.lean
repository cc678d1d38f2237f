import Retry.Duration

namespace Retry

/-- Random words, first to be drawn first. A stream that has run out goes on with zeros. -/
abbrev Words := List UInt64

namespace Words

def word (ws : Words) (i : Nat) : Nat := (ws[i]?.getD 0).toNat

/-- A number drawn from a range, and how many words that took. -/
structure Draw where
  value : Nat
  used : Nat
  deriving DecidableEq, Repr

/-- A number in `low ..= high`: the high half of word times range size, with one more word to
decide a carry that the low half leaves open. A range of all 64-bit numbers takes the word. -/
def draw (low high : Nat) (ws : Words) : Draw :=
  let range := (high - low + 1) % 1 <<< 64
  if range = 0 then ⟨ws.word 0, 1⟩
  else
    let product := ws.word 0 * range
    let whole := product >>> 64
    let rest := product % 1 <<< 64
    if 1 <<< 64 - range < rest then
      let carry := if 1 <<< 64 ≤ rest + (ws.word 1 * range) >>> 64 then 1 else 0
      ⟨low + whole + carry, 2⟩
    else ⟨low + whole, 1⟩

end Words

inductive Jitter where
  /-- The exact delay. -/
  | none
  /-- Uniform in whole milliseconds from zero to the delay. -/
  | full
  /-- Uniform in whole milliseconds from half the delay to the delay. -/
  | equal
  deriving DecidableEq, Repr

namespace Jitter

def greatestMillis : Nat := 1 <<< 64 - 1

/-- Draw a whole number of milliseconds in `low ..= high`. -/
def spread (low high : Nat) (ws : Words) : Nat × Nat :=
  let d := Words.draw low high ws
  (Duration.ofMillis d.value, d.used)

/-- The spread delay, and how many random words that took. -/
def apply (j : Jitter) (delay : Nat) (ws : Words) : Nat × Nat :=
  let ms := min (Duration.millis delay) greatestMillis
  match j with
  | none => (delay, 0)
  | full => if ms = 0 then (0, 0) else spread 0 ms ws
  | equal => if ms = 0 then (0, 0) else spread (ms / 2) ms ws

theorem apply_none (delay : Nat) (ws : Words) : none.apply delay ws = (delay, 0) := rfl

def text : Jitter → String
  | none => "None"
  | full => "Full"
  | equal => "Equal"

end Jitter

end Retry
