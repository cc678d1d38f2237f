import Retry.Gzip.Member

namespace Retry.Gzip

/-- The bytes start with a whole member, and these are its data. What follows the member is not a
part of it. -/
inductive Holds (b : Bytes) : Bytes → Prop where
  | member {rest : Bytes} {output : Array UInt8} {s : Source} (hheader : skipHeader b = .ok rest)
      (hdata : inflate rest = ⟨output, .ok s⟩)
      (htrailer : checkTrailer output.toList s.align.bytes = .ok ()) : Holds b output.toList

theorem Holds.eq {b data data' : Bytes} (h : Holds b data) (h' : Holds b data') : data = data' := by
  obtain ⟨hheader, hdata, -⟩ := h
  obtain ⟨hheader', hdata', -⟩ := h'
  obtain rfl := Except.ok.inj (hheader.symm.trans hheader')
  rw [(Inflated.mk.inj (hdata.symm.trans hdata')).1]

/-- A member is unpacked if the limit allows its data, and refused as too large if not. -/
theorem unpack_of_holds {b data : Bytes} (h : Holds b data) (limit : Nat) :
    unpack limit b = if data.length ≤ limit then .ok data else .error .tooLarge := by
  obtain ⟨hheader, hdata, htrailer⟩ := h
  rename_i rest output s
  have hdelivered : delivered ⟨output, .ok s⟩ = output.toList.length := Array.length_toList.symm
  simp only [unpack, hheader, hdata, hdelivered, htrailer]
  by_cases hwithin : output.toList.length ≤ limit
  · have hnot : ¬ limit < output.toList.length := by omega
    simp only [hwithin, hnot, if_true, if_false]
  · have hover : limit < output.toList.length := by omega
    simp only [hwithin, hover, if_true, if_false]

/-- Nothing is unpacked but the data of a member, and no more than the limit allows. -/
theorem holds_of_unpack {limit : Nat} {b data : Bytes} (h : unpack limit b = .ok data) :
    Holds b data ∧ data.length ≤ limit := by
  unfold unpack at h
  split at h
  · cases h
  · next rest hheader =>
    dsimp only at h
    split at h
    · cases h
    · next hwithin =>
      cases hdata : inflate rest with
      | mk output ending =>
        rw [hdata] at h hwithin
        cases ending with
        | error e => cases h
        | ok s =>
          dsimp only at h
          split at h
          · cases h
          · next htrailer =>
            obtain rfl := Except.ok.inj h
            refine ⟨.member hheader hdata htrailer, ?_⟩
            have hsize : output.toList.length = output.size := Array.length_toList
            rw [hsize]
            exact Nat.le_of_not_lt hwithin

end Retry.Gzip
