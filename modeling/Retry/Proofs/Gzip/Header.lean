import Mathlib.Data.List.TakeWhile
import Retry.Proofs.Gzip.Steady

namespace Retry.Gzip

section Cutting

variable {α : Type} {f : Reader Bytes α} {v : α} {b rest : Bytes}

/-- A reader of bytes that goes on as before, whatever follows. -/
def Cuts (f : Reader Bytes α) : Prop := ∀ more, Steady (Growth.bytes more) f

theorem Cuts.append (hf : Cuts f) (h : f b = .ok (v, rest)) (more : Bytes) :
    f (b ++ more) = .ok (v, rest ++ more) := by
  have hcarries := (hf more).carries b trivial
  rw [h] at hcarries
  generalize hmore : f ((Growth.bytes more).grow b) = r at hcarries
  cases hcarries
  exact hmore

/-- What a reader has read is the front of the bytes, and it reads the same of that alone. -/
theorem Cuts.exists_front (hf : Cuts f) (h : f b = .ok (v, rest)) :
    ∃ front, b = front ++ rest ∧ f front = .ok (v, []) := by
  have hle : rest.length ≤ b.length := (hf []).shrinks b v rest h
  -- the front has the right length; what follows it is told by the reader
  obtain ⟨front, more, rfl, hlength⟩ : ∃ front more, b = front ++ more ∧ more.length = rest.length :=
    ⟨b.take (b.length - rest.length), b.drop (b.length - rest.length),
      (List.take_append_drop _ _).symm, by rw [List.length_drop]; omega⟩
  have hcarries := (hf more).carries front trivial
  have hgrown : f ((Growth.bytes more).grow front) = .ok (v, rest) := h
  rw [hgrown] at hcarries
  generalize hfront : f front = r at hcarries
  generalize hwhole : (Except.ok (v, rest) : Except Fault (α × Bytes)) = r' at hcarries
  cases hcarries with
  | @value w t _ =>
    obtain ⟨rfl, rfl⟩ := Prod.mk.inj (Except.ok.inj hwhole)
    have hgrow : ((Growth.bytes more).grow t).length = t.length + more.length := List.length_append
    obtain rfl : t = [] := List.eq_nil_of_length_eq_zero (by omega)
    exact ⟨front, rfl, hfront⟩
  | corrupt => cases hwhole
  | short hused =>
    have hless : rest.length < more.length := hused v rest hwhole.symm
    omega

/-- Nothing is read of less than the front. -/
theorem Cuts.front_eq (hf : Cuts f) {front more : Bytes} (h : f (front ++ more) = .ok (v, []))
    {w : α} {t : Bytes} (hfront : f front = .ok (w, t)) : more = [] := by
  have hwhole := hf.append hfront more
  rw [h] at hwhole
  exact (List.append_eq_nil_iff.mp (Prod.mk.inj (Except.ok.inj hwhole)).2.symm).2

end Cutting

section Header

variable {more : Bytes}

/-- A text that ends within the bytes, or one that does not and is short, or long. -/
theorem takeText_append {text rest : Bytes} (htext : ∀ b ∈ text, b ≠ 0) :
    takeText (text ++ 0 :: rest) =
      if longestText < text.length then .error .corrupt else .ok (text ++ [0], rest) := by
  have hall : ∀ b ∈ text, decide (b ≠ 0) = true := fun b hb => decide_eq_true (htext b hb)
  have htaken : (text ++ 0 :: rest).takeWhile (· ≠ 0) = text := by
    rw [List.takeWhile_append_of_pos hall]
    simp
  rw [takeText, htaken, List.drop_left]

theorem takeText_of_endless {text : Bytes} (htext : ∀ b ∈ text, b ≠ 0) :
    takeText text =
      if longestText < text.length then .error .corrupt else .error .truncated := by
  have hall : ∀ b ∈ text, decide (b ≠ 0) = true := fun b hb => decide_eq_true (htext b hb)
  have htaken : text.takeWhile (· ≠ 0) = text := List.takeWhile_eq_self_iff.mpr hall
  rw [takeText, htaken, List.drop_length]

theorem exists_text (b : Bytes) : (∀ x ∈ b, x ≠ 0) ∨
    ∃ text rest, b = text ++ 0 :: rest ∧ ∀ x ∈ text, x ≠ 0 := by
  induction b with
  | nil => exact Or.inl nofun
  | cons x b ih =>
    by_cases hx : x = 0
    · exact Or.inr ⟨[], b, by rw [hx]; rfl, nofun⟩
    · rcases ih with hall | ⟨text, rest, rfl, htext⟩
      · exact Or.inl (List.forall_mem_cons.mpr ⟨hx, hall⟩)
      · exact Or.inr ⟨x :: text, rest, rfl, List.forall_mem_cons.mpr ⟨hx, htext⟩⟩

/-- A text without an end that is too long stays so. -/
theorem carries_endless {n n' : Nat} (hle : n ≤ n') {r : Except Fault (Bytes × Bytes)}
    (hr : ∀ v rest, r = .ok (v, rest) → (Growth.bytes more).size rest < (Growth.bytes more).least) :
    Carries (Growth.bytes more) (if longestText < n then .error .corrupt else .error .truncated)
      (if longestText < n' then .error .corrupt else r) := by
  by_cases hlong : longestText < n
  · rw [if_pos hlong, if_pos (Nat.lt_of_lt_of_le hlong hle)]
    exact .corrupt
  · rw [if_neg hlong]
    refine .short fun v rest h => hr v rest ?_
    split at h
    · cases h
    · exact h

theorem steady_takeText : Steady (Growth.bytes more) takeText where
  shrinks b v rest h := by
    rcases exists_text b with hall | ⟨text, after, rfl, htext⟩
    · rw [takeText_of_endless hall] at h
      split at h <;> cases h
    · rw [takeText_append htext] at h
      split at h
      · cases h
      · obtain ⟨-, rfl⟩ := Prod.mk.inj (Except.ok.inj h)
        simp only [Growth.bytes, List.length_append, List.length_cons]
        omega
  carries b _ := by
    change Carries (Growth.bytes more) (takeText b) (takeText (b ++ more))
    rcases exists_text b with hall | ⟨text, after, rfl, htext⟩
    · -- the text goes on into what follows
      rw [takeText_of_endless hall]
      rcases exists_text more with hmore | ⟨text, after, rfl, htext⟩
      · have hboth : ∀ x ∈ b ++ more, x ≠ 0 := List.forall_mem_append.mpr ⟨hall, hmore⟩
        rw [takeText_of_endless hboth]
        exact carries_endless (by rw [List.length_append]; exact Nat.le_add_right _ _)
          fun _ _ h => by cases h
      · have hboth : ∀ x ∈ b ++ text, x ≠ 0 := List.forall_mem_append.mpr ⟨hall, htext⟩
        rw [← List.append_assoc, takeText_append hboth]
        refine carries_endless (by rw [List.length_append]; exact Nat.le_add_right _ _) ?_
        intro v rest h
        obtain ⟨-, rfl⟩ := Prod.mk.inj (Except.ok.inj h)
        simp only [Growth.bytes, List.length_append, List.length_cons]
        omega
    · rw [List.append_assoc, List.cons_append, takeText_append htext, takeText_append htext]
      split
      · exact .corrupt
      · exact .value trivial

theorem steady_optional (present : Bool) {field : Reader Bytes Bytes}
    (hfield : Steady (Growth.bytes more) field) :
    Steady (Growth.bytes more) (optional present field) := by
  cases present with
  | false => exact .pure []
  | true => exact hfield

theorem takeExtra_eq : takeExtra = (do
    let size ← take 2
    let data ← take (littleEndian size)
    return size ++ data : Reader Bytes Bytes) := rfl

theorem steady_takeExtra : Steady (Growth.bytes more) takeExtra := by
  rw [takeExtra_eq]
  exact (steady_take 2).bind fun size => (steady_take _).bind fun data => .pure _

/-- To read the header away, as a reader. -/
def header : Reader Bytes Unit := do
  let start ← take 10
  match start with
  | 0x1f :: 0x8b :: 8 :: flags :: _ =>
    if hasFlag flags 0xe0 then throw .corrupt
    else
      let extra ← optional (hasFlag flags 4) takeExtra
      let name ← optional (hasFlag flags 8) takeText
      let comment ← optional (hasFlag flags 16) takeText
      let check ← optional (hasFlag flags 2) (take 2)
      let sum := (crc32 (start ++ extra ++ name ++ comment)).toNat % 1 <<< 16
      if hasFlag flags 2 && littleEndian check ≠ sum then throw .corrupt else return ()
  | _ => throw .corrupt

theorem header_eq (b : Bytes) : header b = ((), ·) <$> skipHeader b := by
  unfold header skipHeader
  rw [map_bind, bind_run]
  refine bind_congr fun p => ?_
  obtain ⟨start, b⟩ := p
  dsimp only
  split
  · simp only [ite_reader, apply_ite (((), ·) <$> ·), map_bind, bind_run]
    split
    · rfl
    · exact bind_congr fun _ => bind_congr fun _ => bind_congr fun _ => bind_congr fun _ => rfl
  · simp only [Except.map_error]
    rfl

theorem steady_header : Steady (Growth.bytes more) header := by
  refine (steady_take 10).bind fun start => ?_
  split
  · refine .ite .corrupt ?_
    exact (steady_optional _ steady_takeExtra).bind fun extra =>
      (steady_optional _ steady_takeText).bind fun name =>
      (steady_optional _ steady_takeText).bind fun comment =>
      (steady_optional _ (steady_take 2)).bind fun check => .ite .corrupt (.pure ())
  · exact .corrupt

theorem cuts_header : Cuts header := fun _ => steady_header

end Header

end Retry.Gzip
