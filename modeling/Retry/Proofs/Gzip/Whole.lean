import Mathlib.Algebra.Order.Ring.Nat
import Retry.Proofs.Gzip.Header
import Retry.Proofs.Gzip.Inflate
import Retry.Proofs.Gzip.Member

namespace Retry.Gzip

variable {more : Bytes}

/-- To read what the header is followed by, up to where a byte begins. -/
def inflated : Reader Bytes (Array UInt8) := fun b =>
  (Inflate.filled Inflate.blocks #[] ⟨b, 0⟩).map fun p => (p.1, p.2.align.bytes)

theorem inflated_eq_ok_iff {b rest : Bytes} {out : Array UInt8} :
    inflated b = .ok (out, rest) ↔ ∃ s, inflate b = ⟨out, .ok s⟩ ∧ s.align.bytes = rest := by
  unfold inflated
  constructor
  · intro h
    cases hfilled : Inflate.filled Inflate.blocks #[] ⟨b, 0⟩ with
    | error e =>
      rw [hfilled] at h
      cases h
    | ok p =>
      rw [hfilled] at h
      obtain ⟨rfl, rfl⟩ := Prod.mk.inj (Except.ok.inj h)
      exact ⟨p.2, Inflate.filled_eq_ok_iff.mp hfilled, rfl⟩
  · rintro ⟨s, hs, rfl⟩
    rw [Inflate.filled_eq_ok_iff.mpr hs]
    rfl

theorem steady_inflated : Steady (Growth.bytes more) inflated where
  shrinks b out rest h := by
    obtain ⟨s, hs, rfl⟩ := inflated_eq_ok_iff.mp h
    have hleft : s.left ≤ 9 * b.length + 8 := Inflate.left_of_blocks hs
    have hless := s.length_align_le
    change s.align.bytes.length ≤ b.length
    omega
  carries b _ := by
    have hcarries := (@Inflate.steady_blocks more #[]).carries ⟨b, 0⟩ fun _ => rfl
    have hsound := (@Inflate.steady_blocks [] #[]).carries ⟨b ++ more, 0⟩ fun _ => rfl
    have hgrown : (Source.growth more).grow ⟨b, 0⟩ = ⟨b ++ more, 0⟩ := rfl
    rw [hgrown] at hcarries
    change Carries _ (inflated b) (inflated (b ++ more))
    unfold inflated
    generalize Inflate.filled Inflate.blocks #[] ⟨b, 0⟩ = r,
      Inflate.filled Inflate.blocks #[] ⟨b ++ more, 0⟩ = r' at hcarries hsound ⊢
    cases hcarries with
    | @value out s hs =>
      have halign : ((Source.growth more).grow s).align.bytes = s.align.bytes ++ more := by
        rw [Source.align_grow hs]
        rfl
      simp only [Except.map, halign]
      exact .value trivial
    | corrupt => exact .corrupt
    | short hused =>
      refine .short fun out rest h => ?_
      cases r' with
      | error e => cases h
      | ok p =>
        obtain ⟨rfl, rfl⟩ := Prod.mk.inj (Except.ok.inj h)
        have hless := hused p.1 p.2 rfl
        have hlength := Source.length_align_lt hsound.sound
        change p.2.align.bytes.length < more.length
        change p.2.left < 9 * more.length + 8 at hless
        omega

theorem cuts_inflated : Cuts inflated := fun _ => steady_inflated

theorem take_eq_ok_iff {count : Nat} {b v rest : Bytes} :
    take count b = .ok (v, rest) ↔ b = v ++ rest ∧ v.length = count := by
  unfold take
  split
  · next hshort =>
    refine ⟨nofun, ?_⟩
    rintro ⟨rfl, rfl⟩
    rw [List.length_append] at hshort
    omega
  · next hlong =>
    simp only [Except.ok.injEq, Prod.mk.injEq]
    constructor
    · rintro ⟨rfl, rfl⟩
      exact ⟨(List.take_append_drop count b).symm, by rw [List.length_take]; omega⟩
    · rintro ⟨rfl, rfl⟩
      exact ⟨List.take_left, List.drop_left⟩

/-- To read the trailer for the data that came out. -/
def trailer (data : Bytes) : Reader Bytes Unit := do
  let check ← take 4
  let size ← take 4
  if littleEndian check = (crc32 data).toNat && littleEndian size = data.length % 1 <<< 32 then
    return ()
  else throw .corrupt

theorem trailer_eq_ok_iff {data b rest : Bytes} : trailer data b = .ok ((), rest) ↔
    ∃ check size, b = check ++ size ++ rest ∧ check.length = 4 ∧ size.length = 4 ∧
      littleEndian check = (crc32 data).toNat ∧ littleEndian size = data.length % 2 ^ 32 := by
  unfold trailer
  simp only [bind_eq_ok_iff, take_eq_ok_iff, ite_reader]
  constructor
  · rintro ⟨check, _, ⟨rfl, hcheck⟩, size, rest', ⟨rfl, hsize⟩, h⟩
    split at h
    · next hfits =>
      obtain ⟨-, rfl⟩ := Prod.mk.inj (Except.ok.inj h)
      rw [Bool.and_eq_true, decide_eq_true_eq, decide_eq_true_eq] at hfits
      exact ⟨check, size, (List.append_assoc _ _ _).symm, hcheck, hsize, hfits⟩
    · cases h
  · rintro ⟨check, size, rfl, hcheck, hsize, hfits⟩
    refine ⟨check, size ++ rest, ⟨List.append_assoc _ _ _, hcheck⟩, size, rest, ⟨rfl, hsize⟩, ?_⟩
    rw [if_pos]
    · rfl
    · rw [Bool.and_eq_true, decide_eq_true_eq, decide_eq_true_eq]
      exact hfits

theorem checkTrailer_eq (data b : Bytes) : checkTrailer data b = (trailer data b).map (·.1) := by
  unfold checkTrailer trailer
  simp only [bind_apply]
  dsimp only [bind, Except.bind]
  rcases take 4 b with e | ⟨check, b⟩
  · rfl
  · dsimp only
    rcases take 4 b with e | ⟨size, b⟩
    · rfl
    · dsimp only
      rw [ite_reader]
      split <;> rfl

theorem steady_trailer (data : Bytes) : Steady (Growth.bytes more) (trailer data) :=
  (steady_take 4).bind fun _ => (steady_take 4).bind fun _ => .ite (.pure ()) .corrupt

/-- To read a member, as far as it goes. -/
def member : Reader Bytes Bytes := do
  header
  let out ← inflated
  trailer out.toList
  return out.toList

theorem steady_member : Steady (Growth.bytes more) member :=
  steady_header.bind fun _ => steady_inflated.bind fun _ => (steady_trailer _).bind fun _ => .pure _

theorem cuts_member : Cuts member := fun _ => steady_member

theorem header_eq_ok_iff {b rest : Bytes} : header b = .ok ((), rest) ↔ skipHeader b = .ok rest := by
  rw [header_eq]
  cases skipHeader b with
  | error e => exact ⟨nofun, nofun⟩
  | ok rest' =>
    change Except.ok ((), rest') = .ok ((), rest) ↔ _
    simp only [Except.ok.injEq, Prod.mk.injEq, true_and]

theorem member_eq_ok_iff {b data rest : Bytes} : member b = .ok (data, rest) ↔
    ∃ packed out rest', header b = .ok ((), packed) ∧ inflated packed = .ok (out, rest') ∧
      trailer out.toList rest' = .ok ((), rest) ∧ out.toList = data := by
  unfold member
  simp only [bind_eq_ok_iff, pure_apply, Except.ok.injEq, Prod.mk.injEq]
  constructor
  · rintro ⟨⟨⟩, packed, hheader, out, rest', hpacked, ⟨⟩, _, htrailer, rfl, rfl⟩
    exact ⟨packed, out, rest', hheader, hpacked, htrailer, rfl⟩
  · rintro ⟨packed, out, rest', hheader, hpacked, htrailer, rfl⟩
    exact ⟨(), packed, hheader, out, rest', hpacked, (), rest, htrailer, rfl, rfl⟩

theorem holds_iff {b data : Bytes} : Holds b data ↔ ∃ rest, member b = .ok (data, rest) := by
  constructor
  · rintro ⟨hheader, hdata, htrailer⟩
    rw [checkTrailer_eq] at htrailer
    rename_i packed output s
    cases hrest : trailer output.toList s.align.bytes with
    | error e =>
      rw [hrest] at htrailer
      cases htrailer
    | ok p =>
      exact ⟨p.2, member_eq_ok_iff.mpr ⟨packed, output, s.align.bytes, header_eq_ok_iff.mpr hheader,
        inflated_eq_ok_iff.mpr ⟨s, hdata, rfl⟩, hrest, rfl⟩⟩
  · rintro ⟨rest, h⟩
    obtain ⟨packed, out, _, hheader, hpacked, htrailer, rfl⟩ := member_eq_ok_iff.mp h
    obtain ⟨s, hdata, rfl⟩ := inflated_eq_ok_iff.mp hpacked
    refine .member (header_eq_ok_iff.mp hheader) hdata ?_
    rw [checkTrailer_eq, htrailer]
    rfl

/-- A whole member and nothing else: a header, what inflates to the data, up to its last byte, and the
check and the size of the data. -/
inductive IsMember : Bytes → Bytes → Prop where
  | mk {front packed check size : Bytes} {output : Array UInt8} {s : Source}
      (hheader : skipHeader front = .ok []) (hdata : inflate packed = ⟨output, .ok s⟩)
      (hend : s.align.bytes = []) (hlength : check.length = 4 ∧ size.length = 4)
      (hcheck : littleEndian check = (crc32 output.toList).toNat)
      (hsize : littleEndian size = output.size % 2 ^ 32) :
      IsMember (front ++ packed ++ (check ++ size)) output.toList

theorem isMember_iff {m data : Bytes} : IsMember m data ↔ member m = .ok (data, []) := by
  rw [member_eq_ok_iff]
  constructor
  · rintro ⟨hheader, hdata, hend, hlength, hcheck, hsize⟩
    rename_i front packed check size output s
    have hfront := cuts_header.append (header_eq_ok_iff.mpr hheader)
      (packed ++ (check ++ size))
    have hpacked := cuts_inflated.append (inflated_eq_ok_iff.mpr ⟨s, hdata, hend⟩) (check ++ size)
    rw [← List.append_assoc, List.nil_append] at hfront
    refine ⟨_, _, _, hfront, hpacked, trailer_eq_ok_iff.mpr ⟨check, size, ?_, hlength.1, hlength.2,
      hcheck, ?_⟩, rfl⟩
    · rw [List.nil_append, List.append_nil]
    · rw [hsize, Array.length_toList]
  · rintro ⟨b, out, b', hheader, hpacked, htrailer, rfl⟩
    obtain ⟨front, rfl, hfront⟩ := cuts_header.exists_front hheader
    obtain ⟨packed, rfl, hinner⟩ := cuts_inflated.exists_front hpacked
    obtain ⟨check, size, rfl, hfour, hfour', hcheck, hsize⟩ := trailer_eq_ok_iff.mp htrailer
    obtain ⟨s, hdata, hend⟩ := inflated_eq_ok_iff.mp hinner
    rw [List.append_nil, ← List.append_assoc]
    refine .mk (header_eq_ok_iff.mp hfront) hdata hend ⟨hfour, hfour'⟩ hcheck ?_
    rw [hsize, Array.length_toList]

section Ends

variable {m rest data : Bytes}

theorem holds_of_isMember (h : IsMember m data) (rest : Bytes) : Holds (m ++ rest) data :=
  holds_iff.mpr ⟨[] ++ rest, cuts_member.append (isMember_iff.mp h) rest⟩

/-- Bytes that hold data start with a member. -/
theorem exists_isMember {b : Bytes} (h : Holds b data) : ∃ m rest, b = m ++ rest ∧ IsMember m data := by
  obtain ⟨rest, hmember⟩ := holds_iff.mp h
  obtain ⟨m, rfl, hm⟩ := cuts_member.exists_front hmember
  exact ⟨m, rest, rfl, isMember_iff.mpr hm⟩

/-- Bytes behind the member make no difference. -/
theorem Holds.append {b : Bytes} (h : Holds b data) (more : Bytes) : Holds (b ++ more) data := by
  obtain ⟨m, rest, rfl, hmember⟩ := exists_isMember h
  rw [List.append_assoc]
  exact holds_of_isMember hmember (rest ++ more)

/-- The first bytes of a member hold nothing, if any are missing. -/
theorem not_holds_of_isMember {p missing : Bytes} (h : IsMember (p ++ missing) data)
    (hmissing : missing ≠ []) (data' : Bytes) : ¬ Holds p data' := by
  intro hp
  obtain ⟨rest, hread⟩ := holds_iff.mp hp
  exact hmissing (cuts_member.front_eq (isMember_iff.mp h) hread)

end Ends

section Series

variable {b m data rest : Bytes} {others parts parts' : List Bytes}

/-- Whole members, one behind the other, and the data of each. -/
inductive IsSeries : Bytes → List Bytes → Prop where
  | nil : IsSeries [] []
  | cons {m data rest : Bytes} {others : List Bytes} (hmember : IsMember m data)
      (hrest : IsSeries rest others) : IsSeries (m ++ rest) (data :: others)

theorem member_append (h : IsMember m data) (rest : Bytes) : member (m ++ rest) = .ok (data, rest) :=
  cuts_member.append (isMember_iff.mp h) rest

theorem IsMember.ne_nil (h : IsMember m data) : m ≠ [] := by
  rintro rfl
  have hread : member [] = .error .truncated := rfl
  rw [isMember_iff.mp h] at hread
  cases hread

theorem IsSeries.eq (h : IsSeries b parts) (h' : IsSeries b parts') : parts = parts' := by
  induction h generalizing parts' with
  | nil =>
    generalize hb : ([] : Bytes) = b at h'
    cases h' with
    | nil => rfl
    | cons hmember => exact absurd (List.append_eq_nil_iff.mp hb.symm).1 hmember.ne_nil
  | @cons m data rest others hmember _ ih =>
    generalize hb : m ++ rest = b at h'
    cases h' with
    | nil => exact absurd (List.append_eq_nil_iff.mp hb).1 hmember.ne_nil
    | cons hmember' hrest' =>
      have hread := member_append hmember rest
      rw [hb, member_append hmember'] at hread
      obtain ⟨rfl, rfl⟩ := Prod.mk.inj (Except.ok.inj hread)
      rw [ih hrest']

theorem holds_of_isSeries (h : IsSeries b (data :: others)) : Holds b data := by
  generalize hparts : data :: others = parts at h
  cases h with
  | nil => cases hparts
  | cons hmember _ =>
    obtain ⟨rfl, rfl⟩ := List.cons.inj hparts
    exact holds_of_isMember hmember _

end Series

end Retry.Gzip
