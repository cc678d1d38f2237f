import Retry.Proofs.Gzip.Steady

namespace Retry.Gzip

namespace Code

variable {more : Bytes}

theorem readFrom_cons (symbols : Array Nat) (count : Nat) (counts : List Nat)
    (code first index : Nat) : readFrom symbols (count :: counts) code first index = (do
    let b ← Source.bit
    if code + b < first + count then
      match symbols[index + (code + b - first)]? with
      | some symbol => return symbol
      | none => throw .corrupt
    else readFrom symbols counts (2 * (code + b)) (2 * (first + count)) (index + count) :
      Reader Source Nat) := by
  funext s
  simp only [readFrom, bind_apply, ite_reader]
  rcases s.bit with e | ⟨b, s⟩
  · rfl
  · dsimp only
    rcases symbols[index + (code + b - first)]? with - | symbol <;> rfl

theorem steady_readFrom (symbols : Array Nat) (counts : List Nat) (code first index : Nat) :
    Steady (Source.growth more) (readFrom symbols counts code first index) := by
  induction counts generalizing code first index with
  | nil => exact .corrupt
  | cons count counts ih =>
    rw [readFrom_cons]
    refine Source.steady_bit.bind fun b => .ite ?_ (ih _ _ _)
    cases symbols[index + (code + b - first)]? with
    | none => exact .corrupt
    | some symbol => exact .pure symbol

theorem steady_read (c : Code) : Steady (Source.growth more) c.read :=
  steady_readFrom c.symbols c.counts 0 0 0

end Code

namespace Inflate

variable {more : Bytes}

theorem extended_eq (table : Array (Nat × Nat)) (row : Nat) : extended table row = (
    match table[row]? with
    | none => throw .corrupt
    | some (least, extra) => do
      let value ← Source.bits extra
      return least + value : Reader Source Nat) := by
  funext s
  simp only [extended]
  rcases table[row]? with - | ⟨least, extra⟩
  · rfl
  · simp only [bind_apply, pure_apply]
    rcases s.bits extra with e | ⟨value, s⟩ <;> rfl

theorem steady_extended (table : Array (Nat × Nat)) (row : Nat) :
    Steady (Source.growth more) (extended table row) := by
  rw [extended_eq]
  rcases table[row]? with - | ⟨least, extra⟩
  · exact .corrupt
  · exact (Source.steady_bits extra).bind fun value => .pure _

theorem item_eq (c : Codes) : item c = (do
    let symbol ← c.literals.read
    if symbol < endOfBlock then return .literal (UInt8.ofNat symbol)
    else if symbol = endOfBlock then return .done
    else
      let length ← extended lengths (symbol - endOfBlock - 1)
      let symbol ← c.distances.read
      let distance ← extended distances symbol
      return .copy length distance : Reader Source Item) := by
  funext s
  simp only [item, bind_apply, pure_apply, ite_reader]
  rcases c.literals.read s with e | ⟨symbol, s⟩
  · rfl
  · dsimp only
    split
    · rfl
    · split
      · rfl
      · rcases extended lengths (symbol - endOfBlock - 1) s with e | ⟨length, s⟩
        · rfl
        · dsimp only
          rcases c.distances.read s with e | ⟨symbol, s⟩
          · rfl
          · dsimp only
            rcases extended distances symbol s with e | ⟨distance, s⟩ <;> rfl

theorem steady_item (c : Codes) : Steady (Source.growth more) (item c) := by
  rw [item_eq]
  exact (Code.steady_read _).bind fun symbol => .ite (.pure _) (.ite (.pure _)
    ((steady_extended _ _).bind fun length => (Code.steady_read _).bind fun symbol =>
      (steady_extended _ _).bind fun distance => .pure _))

/-- To put out what a block of data gives, as a reader. -/
def filled (f : Source → Array UInt8 → Inflated) (out : Array UInt8) : Reader Source (Array UInt8) :=
  fun s => (f s out).ending.map fun s' => ((f s out).output, s')

theorem filled_eq_ok_iff {f : Source → Array UInt8 → Inflated} {out out' : Array UInt8}
    {s s' : Source} : filled f out s = .ok (out', s') ↔ f s out = ⟨out', .ok s'⟩ := by
  unfold filled
  rcases f s out with ⟨output, e | t⟩
  · exact ⟨nofun, nofun⟩
  · simp only [Except.map, Except.ok.injEq, Prod.mk.injEq, Inflated.mk.injEq]

theorem filled_items (c : Codes) (out : Array UInt8) : filled (items c) out = (do
    match ← item c with
    | .done => return out
    | .literal b => filled (items c) (out.push b)
    | .copy length distance => filled (items c) (copy distance length out) :
      Reader Source (Array UInt8)) := by
  funext s
  rw [bind_apply, filled, items]
  rcases item c s with e | ⟨_ | b | ⟨length, distance⟩, s⟩ <;> rfl

theorem shrinks_items (c : Codes) (out : Array UInt8) :
    Shrinks (Source.growth more) (filled (items c) out) := fun _ _ _ h =>
  Nat.le_of_lt (left_of_items (filled_eq_ok_iff.mp h))

theorem steady_items (c : Codes) : ∀ out, Steady (Source.growth more) (filled (items c) out) := by
  refine Steady.of_smaller (shrinks_items c) fun out s hs ih => ?_
  rw [filled_items]
  refine ((steady_item c).carries s hs).bind (fun i t hi ht => ?_) fun i => ?_
  · have hless := left_of_item hi
    cases i with
    | done => exact .value ht
    | literal b => exact ih _ t hless ht
    | copy length distance => exact ih _ t hless ht
  · cases i with
    | done => exact (Steady.pure out).shrinks
    | literal b => exact shrinks_items c _
    | copy length distance => exact shrinks_items c _

/-- The bytes of a block, once their number and its complement are read. -/
def storedBytes (out : Array UInt8) (length complement : Nat) : Reader Source (Array UInt8) :=
  if length + complement ≠ 1 <<< 16 - 1 then throw .corrupt
  else do
    let bytes ← Source.bytesOf length
    return out ++ bytes.toArray

theorem filled_stored (out : Array UInt8) : filled stored out = (do
    let length ← fun s => Source.bits 16 s.align
    let complement ← Source.bits 16
    storedBytes out length complement : Reader Source (Array UInt8)) := by
  funext s
  simp only [filled, stored, storedBytes, bind_apply, ite_reader]
  rcases s.align.bits 16 with e | ⟨length, s⟩
  · rfl
  · dsimp only
    rcases s.bits 16 with e | ⟨complement, s⟩
    · rfl
    · dsimp only
      split
      · rfl
      · unfold Source.bytesOf take
        by_cases hshort : s.bytes.length < length <;> simp only [hshort, if_true, if_false] <;> rfl

theorem shrinks_storedBytes (out : Array UInt8) (length complement : Nat) :
    Shrinks (Source.growth more) (storedBytes out length complement) := by
  unfold storedBytes
  split
  · exact Steady.corrupt.shrinks
  · exact (Source.shrinks_bytesOf length).bind fun bytes => (Steady.pure _).shrinks

/-- The number and its complement take up whole bytes, so the bytes of the block do as well. -/
theorem steady_stored (out : Array UInt8) : Steady (Source.growth more) (filled stored out) := by
  refine ⟨fun s out' s' h => Nat.le_of_lt (left_of_stored (filled_eq_ok_iff.mp h)), fun s hs => ?_⟩
  rw [filled_stored]
  have hlength := @Source.steady_bits_align more 16 (by decide)
  refine (hlength.carries s hs).bind (fun length s₁ h₁ hs₁ => ?_)
    fun length => (Source.steady_bits 16).shrinks.bind fun complement =>
      shrinks_storedBytes out length complement
  refine ((Source.steady_bits 16).carries s₁ hs₁).bind (fun complement s₂ h₂ _ => ?_)
    fun complement => shrinks_storedBytes out length complement
  have haligned : s.align.used = 0 := Source.used_align s
  have hused₁ := Source.used_of_bits h₁ (by omega)
  have hused₂ := Source.used_of_bits h₂ (by omega)
  unfold storedBytes
  split
  · exact .corrupt
  · exact (Source.carries_bytesOf length (by omega)).bind
      (fun bytes t _ ht => .value ht) fun bytes => (Steady.pure _).shrinks

theorem triples_succ (count : Nat) : triples (count + 1) = (do
    let v ← Source.bits 3
    let vs ← triples count
    return v :: vs : Reader Source (List Nat)) := by
  funext s
  simp only [triples, bind_apply, pure_apply]
  rcases s.bits 3 with e | ⟨v, s⟩
  · rfl
  · dsimp only
    rcases triples count s with e | ⟨vs, s⟩ <;> rfl

theorem steady_triples (count : Nat) : Steady (Source.growth more) (triples count) := by
  induction count with
  | zero => exact .pure []
  | succ count ih =>
    rw [triples_succ]
    exact (Source.steady_bits 3).bind fun v => ih.bind fun vs => .pure _

/-- The only thing wrong with a run is that there is nothing before it to repeat. -/
theorem corrupt_of_runLength {symbol : Nat} {previous : Option Nat} {e : Fault}
    (h : runLength symbol previous = .error e) : e = .corrupt := by
  unfold runLength at h
  split at h
  · cases h
  · split at h
    · split at h
      · cases h
      · exact (Except.error.inj h).symm
    · cases h

theorem run_eq (c : Code) (previous : Option Nat) : run c previous = (do
    let symbol ← c.read
    match runLength symbol previous with
    | .error _ => throw .corrupt
    | .ok length =>
      let value ← Source.bits (runShape symbol).1
      return List.replicate ((runShape symbol).2 + value) length : Reader Source (List Nat)) := by
  funext s
  simp only [run, bind_apply]
  rcases c.read s with e | ⟨symbol, s⟩
  · rfl
  · dsimp only
    cases hlength : runLength symbol previous with
    | error e =>
      rw [corrupt_of_runLength hlength]
      rfl
    | ok length =>
      dsimp only
      rw [bind_apply]
      rcases s.bits (runShape symbol).1 with e | ⟨value, s⟩ <;> rfl

theorem steady_run (c : Code) (previous : Option Nat) :
    Steady (Source.growth more) (run c previous) := by
  rw [run_eq]
  refine (Code.steady_read c).bind fun symbol => ?_
  cases runLength symbol previous with
  | error e => exact .corrupt
  | ok length => exact (Source.steady_bits _).bind fun value => .pure _

theorem codeLengths_eq (c : Code) (total : Nat) (known : List Nat) : codeLengths c total known = (
    if known.length = total then return known
    else if total < known.length then throw .corrupt
    else do
      let vs ← run c known.head?
      codeLengths c total (vs ++ known) : Reader Source (List Nat)) := by
  funext s
  rw [codeLengths, ite_reader, ite_reader, bind_apply]
  rcases run c known.head? s with e | ⟨vs, s⟩ <;> rfl

theorem shrinks_codeLengths (c : Code) (total : Nat) (known : List Nat) :
    Shrinks (Source.growth more) (codeLengths c total known) := fun _ _ _ h =>
  left_of_codeLengths h

theorem steady_codeLengths (c : Code) (total : Nat) :
    ∀ known, Steady (Source.growth more) (codeLengths c total known) := by
  refine Steady.of_smaller (shrinks_codeLengths c total) fun known s hs ih => ?_
  rw [codeLengths_eq]
  split
  · exact .value hs
  · split
    · exact .corrupt
    · exact ((steady_run c _).carries s hs).bind (fun vs t hvs ht => ih _ t (left_of_run hvs) ht)
        fun vs => shrinks_codeLengths c total _

/-- The codes for so many literals, and for the distances, with these lengths. -/
def codesFor (literals : Nat) (known : List Nat) : Reader Source Codes :=
  let c : Codes :=
    ⟨.ofLengths (known.reverse.take literals), .ofLengths (known.reverse.drop literals)⟩
  if c.literals.isUsable && c.distances.isUsable then return c else throw .corrupt

theorem codesOf_eq (literals distances given : Nat) : codesOf literals distances given = (
    if 286 < literals || 30 < distances then throw .corrupt
    else do
      let given ← triples given
      if !(lengthCode given).isComplete then throw .corrupt
      else
        let known ← codeLengths (lengthCode given) (literals + distances) []
        codesFor literals known : Reader Source Codes) := by
  funext s
  simp only [codesOf, codesFor, bind_apply, ite_reader]
  split
  · rfl
  · rcases triples given s with e | ⟨given, s⟩
    · rfl
    · dsimp only
      split
      · rfl
      · rcases codeLengths (lengthCode given) (literals + distances) [] s with e | ⟨known, s⟩ <;> rfl

theorem steady_codesOf (literals distances given : Nat) :
    Steady (Source.growth more) (codesOf literals distances given) := by
  rw [codesOf_eq]
  exact .ite .corrupt ((steady_triples given).bind fun given => .ite .corrupt
    ((steady_codeLengths _ _ _).bind fun known => .ite (.pure _) .corrupt))

theorem filled_dynamic (out : Array UInt8) : filled dynamic out = (do
    let sizes ← Source.bits 14
    let c ← codesOf (sizes % 32 + 257) (sizes / 32 % 32 + 1) (sizes / 1024 + 4)
    filled (items c) out : Reader Source (Array UInt8)) := by
  funext s
  simp only [filled, dynamic, bind_apply]
  rcases s.bits 14 with e | ⟨sizes, s⟩
  · rfl
  · dsimp only
    rcases codesOf (sizes % 32 + 257) (sizes / 32 % 32 + 1) (sizes / 1024 + 4) s with e | ⟨c, s⟩ <;>
      rfl

theorem filled_block (kind : Nat) (out : Array UInt8) : filled (block kind) out =
    if kind = 0 then filled stored out
    else if kind = 1 then filled (items fixed) out
    else if kind = 2 then filled dynamic out
    else throw .corrupt := by
  funext s
  simp only [filled, block, ite_reader]
  split
  · rfl
  · split
    · rfl
    · split <;> rfl

theorem steady_block (kind : Nat) (out : Array UInt8) :
    Steady (Source.growth more) (filled (block kind) out) := by
  rw [filled_block, filled_dynamic]
  exact .ite (steady_stored out) (.ite (steady_items fixed out) (.ite
    ((Source.steady_bits 14).bind fun sizes => (steady_codesOf _ _ _).bind fun c =>
      steady_items c out) .corrupt))

theorem filled_blocks (out : Array UInt8) : filled blocks out = (do
    let head ← Source.bits 3
    let out ← filled (block (head / 2)) out
    if head % 2 = 1 then return out else filled blocks out : Reader Source (Array UInt8)) := by
  funext s
  rw [bind_apply, filled, blocks]
  rcases s.bits 3 with e | ⟨head, s⟩
  · rfl
  · dsimp only
    rw [bind_apply, filled]
    rcases block (head / 2) s out with ⟨out, e | s⟩
    · rfl
    · dsimp only [Except.map]
      rw [ite_reader]
      by_cases hlast : head % 2 = 1 <;> simp only [hlast, if_true, if_false] <;> rfl

theorem left_of_blocks {s s' : Source} {out out' : Array UInt8}
    (h : blocks s out = ⟨out', .ok s'⟩) : s'.left ≤ s.left := by
  fun_induction blocks s out with
  | case1 => cases h
  | case2 => cases h
  | case3 s out head s₁ h₁ out₁ s₂ h₂ hlast =>
    obtain ⟨-, hs⟩ := Inflated.mk.inj h
    obtain rfl := Except.ok.inj hs
    exact Nat.le_of_lt (Nat.lt_of_lt_of_le (left_of_block h₂) (Source.left_of_bits h₁).1)
  | case4 s out head s₁ h₁ out₁ s₂ h₂ hlast ih =>
    have hfirst := Nat.lt_of_lt_of_le (left_of_block h₂) (Source.left_of_bits h₁).1
    exact Nat.le_trans (ih h) (Nat.le_of_lt hfirst)

theorem shrinks_blocks (out : Array UInt8) :
    Shrinks (Source.growth more) (filled blocks out) := fun _ _ _ h =>
  left_of_blocks (filled_eq_ok_iff.mp h)

theorem steady_blocks : ∀ out, Steady (Source.growth more) (filled blocks out) := by
  refine Steady.of_smaller shrinks_blocks fun out s hs ih => ?_
  rw [filled_blocks]
  have hrest : ∀ (head : Nat) out, Shrinks (Source.growth more)
      (if head % 2 = 1 then pure out else filled blocks out) := by
    intro head out
    split
    · exact (Steady.pure out).shrinks
    · exact shrinks_blocks out
  refine ((Source.steady_bits 3).carries s hs).bind (fun head s₁ h₁ hs₁ => ?_)
    fun head => (steady_block _ _).shrinks.bind (hrest head)
  refine ((steady_block _ _).carries s₁ hs₁).bind (fun out s₂ h₂ hs₂ => ?_) (hrest head)
  split
  · exact .value hs₂
  · have hless := left_of_block (filled_eq_ok_iff.mp h₂)
    exact ih _ s₂ (Nat.lt_of_lt_of_le hless (Source.left_of_bits h₁).1) hs₂

end Inflate

end Retry.Gzip
