import Retry.Proofs.Gzip.Stream
import Retry.Proofs.Gzip.Whole
import Retry.Proofs.Http.Encoding

namespace Retry.Http

variable {headers : Headers} {body : Bytes} {limit : Nat} {plain : Plain}

/-- A body that is unpacked within one limit gives the same data within every limit that allows them,
and is too large for every other. A reader takes nothing else than these data on the way, whatever the
pieces are, and no more than one byte above the limit. -/
theorem limit_decides (hgzip : headers.Declares "gzip" ∨ headers.Declares "x-gzip")
    (hplain : decompress headers body limit = .ok plain) :
    ∃ b, plain = .unpacked b ∧ b.length ≤ limit ∧
      ∀ limit', (b.length ≤ limit' → decompress headers body limit' = .ok (.unpacked b)) ∧
        (limit' < b.length → decompress headers body limit' = .error (.tooLarge limit')) ∧
        (limit < 2 ^ 64 → ∀ taken, Gzip.Gathers (Gzip.roomFor limit') (Gzip.stream body) taken ↔
          taken = .ok (b.take (limit' + 1))) := by
  have hcoding := isGzip_iff.mpr hgzip
  obtain ⟨b, rfl, hholds, hwithin⟩ := holds_of_decompress hcoding hplain
  refine ⟨b, rfl, hwithin, fun limit' => ⟨fun hallowed => ?_, fun hover => ?_,
    fun hword taken => ?_⟩⟩
  · rw [decompress_of_holds hcoding hholds, if_pos hallowed]
  · rw [decompress_of_holds hcoding hholds, if_neg (Nat.not_le_of_lt hover)]
  · exact Gzip.gathers_iff_of_holds hholds (Nat.lt_of_le_of_lt hwithin hword)

private def mixedCase : Headers := .ofList [("Content-Encoding", .ofString " X-GZip")]

private theorem declares_mixedCase : mixedCase.Declares "x-gzip" :=
  ⟨.ofString " X-GZip", "X-GZip".toList, by decide +kernel,
    ⟨[' '], [], by decide +kernel, List.forall_mem_singleton.mpr rfl, nofun⟩, by decide +kernel⟩

/-- 32 times the digit 1, packed. -/
private def packedOnes : Bytes :=
  [31, 139, 8, 0, 0, 0, 0, 0, 0, 255, 51, 52, 196, 15, 0, 177, 88, 201, 219, 32, 0, 0, 0]

private theorem holds_ones : Gzip.Holds packedOnes (List.replicate 32 49) :=
  (@Gzip.holds_of_unpack 32 _ _ (by decide +kernel)).1

private theorem decompress_ones {b : Bytes} (h : Gzip.Holds b (List.replicate 32 49)) :
    decompress mixedCase b 32 = .ok (.unpacked (List.replicate 32 49)) := by
  rw [decompress_of_holds (isGzip_iff.mpr (Or.inr declares_mixedCase)) h, if_pos (by decide)]

/-- At one byte below what comes out, and at the largest limit that there is. -/
theorem limit_decides_of_ones :
    decompress mixedCase packedOnes 31 = .error (.tooLarge 31) ∧
      decompress mixedCase packedOnes (2 ^ 64 - 1) = .ok (.unpacked (List.replicate 32 49)) := by
  have hplain := decompress_ones holds_ones
  obtain ⟨b, hb, -, hlimits⟩ := limit_decides (Or.inr declares_mixedCase) hplain
  obtain rfl := Plain.unpacked.inj hb
  exact ⟨(hlimits 31).2.1 (by decide), (hlimits (2 ^ 64 - 1)).1 (by decide)⟩

/-- Data are accepted only if the body starts with a whole member that holds them. With the rest of the
body cut off, or any part of the rest, they are accepted as well, and with any of the member missing
nothing is, whatever the limit. -/
theorem accepted_whole (hgzip : headers.Declares "gzip" ∨ headers.Declares "x-gzip")
    (hplain : decompress headers body limit = .ok plain) :
    ∃ b m rest, plain = .unpacked b ∧ b.length ≤ limit ∧ body = m ++ rest ∧ Gzip.IsMember m b ∧
      ∀ p, p <+: body →
        (m.length ≤ p.length → decompress headers p limit = .ok (.unpacked b)) ∧
        (p.length < m.length → ∀ limit' plain', decompress headers p limit' ≠ .ok plain') := by
  have hcoding := isGzip_iff.mpr hgzip
  obtain ⟨b, rfl, hholds, hwithin⟩ := holds_of_decompress hcoding hplain
  obtain ⟨m, rest, rfl, hmember⟩ := Gzip.exists_isMember hholds
  refine ⟨b, m, rest, rfl, hwithin, rfl, hmember, fun p hp => ⟨fun hlong => ?_,
    fun hshort limit' plain' hplain' => ?_⟩⟩
  · obtain ⟨some, rfl⟩ := List.prefix_of_prefix_length_le (List.prefix_append m rest) hp hlong
    rw [decompress_of_holds hcoding (Gzip.holds_of_isMember hmember some), if_pos hwithin]
  · obtain ⟨missing, rfl⟩ := List.prefix_of_prefix_length_le hp (List.prefix_append m rest)
      (Nat.le_of_lt hshort)
    obtain ⟨data, -, hdata, -⟩ := holds_of_decompress hcoding hplain'
    have hmissing : missing ≠ [] := by
      rintro rfl
      rw [List.append_nil] at hshort
      exact Nat.lt_irrefl _ hshort
    exact Gzip.not_holds_of_isMember hmember hmissing data hdata

/-- A byte behind the member is not a part of it; the limit is just what comes out. -/
theorem accepted_whole_of_ones :
    ∃ m rest, packedOnes ++ [7] = m ++ rest ∧ Gzip.IsMember m (List.replicate 32 49) ∧
      decompress mixedCase m 32 = .ok (.unpacked (List.replicate 32 49)) := by
  have hplain := decompress_ones (holds_ones.append [7])
  obtain ⟨b, m, rest, hb, -, hbody, hmember, hcut⟩ :=
    accepted_whole (Or.inr declares_mixedCase) hplain
  obtain rfl := Plain.unpacked.inj hb
  have hfront : m <+: packedOnes ++ [7] := hbody ▸ List.prefix_append m rest
  exact ⟨m, rest, hbody, hmember, (hcut m hfront).1 (Nat.le_refl _)⟩

/-- What these data come to within a limit. -/
def undone (limit : Nat) (data : Bytes) : Except DecodeFault Plain :=
  if data.length ≤ limit then .ok (.unpacked data) else .error (.tooLarge limit)

theorem undone_append_iff (limit : Nat) (data more : Bytes) :
    undone limit data = undone limit (data ++ more) ↔ more = [] ∨ limit < data.length := by
  have hlength : (data ++ more).length = data.length + more.length := List.length_append
  unfold undone
  by_cases hwithin : data.length ≤ limit
  · rw [if_pos hwithin]
    constructor
    · intro h
      split at h
      · have hsame := Plain.unpacked.inj (Except.ok.inj h)
        exact Or.inl (List.append_right_eq_self.mp hsame.symm)
      · cases h
    · rintro (rfl | hover)
      · rw [List.append_nil, if_pos hwithin]
      · omega
  · rw [if_neg hwithin, if_neg (by omega)]
    exact ⟨fun _ => Or.inr (by omega), fun _ => rfl⟩

/-- Of a body of several members, the first is unpacked, within the limit or not. That comes to the same
as unpacking all of them only if the others hold nothing, or the first alone is too large; else what the
others hold is left out. -/
theorem first_member_alone {data : Bytes} {others : List Bytes}
    (hgzip : headers.Declares "gzip" ∨ headers.Declares "x-gzip")
    (hseries : Gzip.IsSeries body (data :: others)) (limit : Nat) :
    (∀ parts, Gzip.IsSeries body parts → parts = data :: others) ∧
      decompress headers body limit = undone limit data ∧
      (decompress headers body limit = undone limit (data :: others).flatten ↔
        others.flatten = [] ∨ limit < data.length) := by
  have hfirst : decompress headers body limit = undone limit data :=
    decompress_of_holds (isGzip_iff.mpr hgzip) (Gzip.holds_of_isSeries hseries) limit
  refine ⟨fun parts hparts => hparts.eq hseries, hfirst, ?_⟩
  rw [hfirst, List.flatten_cons]
  exact undone_append_iff limit data others.flatten

private def packedOne : Bytes :=
  [31, 139, 8, 0, 0, 0, 0, 0, 0, 255, 51, 4, 0, 183, 239, 220, 131, 1, 0, 0, 0]

private def packedTwo : Bytes :=
  [31, 139, 8, 0, 0, 0, 0, 0, 0, 255, 51, 2, 0, 13, 190, 213, 26, 1, 0, 0, 0]

private theorem isSeries_oneTwo : Gzip.IsSeries (packedOne ++ (packedTwo ++ [])) [[49], [50]] :=
  .cons (Gzip.isMember_iff.mpr (by decide +kernel))
    (.cons (Gzip.isMember_iff.mpr (by decide +kernel)) .nil)

/-- Two digits, each in a member of its own: a limit of nothing refuses both, and any other gives the
first. -/
theorem first_member_alone_of_digits :
    decompress mixedCase (packedOne ++ (packedTwo ++ [])) 0 = undone 0 [49, 50] ∧
      decompress mixedCase (packedOne ++ (packedTwo ++ [])) 1 = .ok (.unpacked [49]) := by
  have hgzip : mixedCase.Declares "gzip" ∨ mixedCase.Declares "x-gzip" := Or.inr declares_mixedCase
  exact ⟨(first_member_alone hgzip isSeries_oneTwo 0).2.2.mpr (Or.inr (by decide)),
    (first_member_alone hgzip isSeries_oneTwo 1).2.1⟩

/-- The second digit is lost, and what is left is a number still. -/
theorem second_member_lost :
    Gzip.IsSeries (packedOne ++ (packedTwo ++ [])) [[49], [50]] ∧
      decompress (.ofList [("content-encoding", .ofString "gzip")])
        (packedOne ++ (packedTwo ++ [])) 100 = .ok (.unpacked [49]) ∧
      undone 100 [[49], [50]].flatten = .ok (.unpacked [49, 50]) := by
  refine ⟨isSeries_oneTwo, ?_, rfl⟩
  exact decompress_of_holds (Or.inl (by decide +kernel)) (Gzip.holds_of_isSeries isSeries_oneTwo) 100

end Retry.Http
