import Retry.Proofs.Http.Encoding

namespace Retry.Http

variable {headers : Headers} {body value : Bytes} {limit : Nat} {word : String}

/-- Nothing but blanks, or the word for no coding. -/
def NamesNone (value : Bytes) : Prop := Names value "" ∨ Names value "identity"

instance (value : Bytes) : Decidable (NamesNone value) := inferInstanceAs (Decidable (_ ∨ _))

theorem readable_of_namesNone (h : NamesNone value) : Text.Readable value := by
  rcases h with hnone | hidentity
  · exact (Text.readable_iff_of_spelt hnone).mpr (by decide)
  · exact (Text.readable_iff_of_spelt hidentity).mpr (by decide)

theorem exists_names (value : Bytes) : ∃ word, Names value word :=
  ⟨.ofList (Text.lower (Text.trim (value.map Bytes.charOf))),
    Text.spelt_iff.mpr String.toList_ofList.symm⟩

theorem namesNone_iff (h : Names value word) : NamesNone value ↔ word = "" ∨ word = "identity" := by
  constructor
  · exact Or.imp h.eq h.eq
  · exact Or.imp (fun hword => hword ▸ h) fun hword => hword ▸ h

/-- How it is told what came of unpacking. -/
def ofUnpacked (limit : Nat) : Except Gzip.Refusal Bytes → Except DecodeFault Plain
  | .ok data => .ok (.unpacked data)
  | .error .tooLarge => .error (.tooLarge limit)
  | .error (.faulty fault) => .error (.decompress (ioFaultOf fault))

theorem decompress_of_unread (h : ∀ value ∈ headers.first? "content-encoding", ¬ Text.Readable value)
    (body : Bytes) (limit : Nat) : decompress headers body limit = .ok .asIs := by
  rw [decompress, coding?_eq_none_iff.mpr h]

theorem decompress_of_names (hfirst : headers.first? "content-encoding" = some value)
    (hvalue : Text.Readable value) (hnames : Names value word) (body : Bytes) (limit : Nat) :
    decompress headers body limit =
      if word = "" ∨ word = "identity" then .ok .asIs
      else if word = "gzip" ∨ word = "x-gzip" then ofUnpacked limit (Gzip.unpack limit body)
      else .error (.unsupportedEncoding word) := by
  rw [decompress, coding?_eq_some_iff.mpr ⟨value, hfirst, hvalue, hnames⟩]
  simp only [Bool.or_eq_true, decide_eq_true_eq, String.toList_inj, String.ofList_toList,
    ← String.toList_eq_nil_iff]
  split
  · rfl
  · split
    · rcases Gzip.unpack limit body with (_ | _) | _ <;> rfl
    · rfl

theorem ofUnpacked_ne_asIs (limit : Nat) (r : Except Gzip.Refusal Bytes) :
    ofUnpacked limit r ≠ .ok .asIs := by
  rcases r with (_ | _) | _ <;> nofun

theorem decompress_eq_asIs_iff : decompress headers body limit = .ok .asIs ↔
    ∀ value ∈ headers.first? "content-encoding", Text.Readable value → NamesNone value := by
  cases hfirst : headers.first? "content-encoding" with
  | none =>
    refine ⟨fun _ => nofun, fun _ => decompress_of_unread ?_ body limit⟩
    rw [hfirst]
    exact nofun
  | some value =>
    simp only [Option.mem_def, Option.some.injEq, forall_eq']
    by_cases hvalue : Text.Readable value
    · obtain ⟨word, hnames⟩ := exists_names value
      rw [decompress_of_names hfirst hvalue hnames, namesNone_iff hnames]
      split
      · next hnone => exact ⟨fun _ _ => hnone, fun _ => rfl⟩
      · next hsome =>
        refine ⟨fun h => ?_, fun h => absurd (h hvalue) hsome⟩
        split at h
        · exact absurd h (ofUnpacked_ne_asIs _ _)
        · cases h
    · refine ⟨fun _ h => absurd h hvalue, fun _ => decompress_of_unread ?_ body limit⟩
      rw [hfirst]
      rintro _ ⟨⟩
      exact hvalue

/-- A body is passed on as it is if the first value names no coding, or cannot be read. That is the
case exactly where no value names one, unless the first cannot be read, or names none while a further
one does. A first value that can be read and names a coding gets the body unpacked, or refused by what
it names, and no reader is given anything but the data of a member that the body starts with. -/
theorem untouched_iff (headers : Headers) (body : Bytes) (limit : Nat) :
    (decompress headers body limit = .ok .asIs ↔
      ∀ value ∈ headers.first? "content-encoding", Text.Readable value → NamesNone value) ∧
    ((decompress headers body limit = .ok .asIs ↔
        ∀ value ∈ headers.values "content-encoding", NamesNone value) ↔
      ∀ value ∈ headers.first? "content-encoding", Text.Readable value ∧
        (NamesNone value → ∀ further ∈ headers.values "content-encoding", NamesNone further)) ∧
    ∀ value ∈ headers.first? "content-encoding", Text.Readable value → ¬ NamesNone value →
      ((Names value "gzip" ∨ Names value "x-gzip") ∧
          decompress headers body limit = ofUnpacked limit (Gzip.unpack limit body) ∨
        ∃ word, Names value word ∧ word ≠ "gzip" ∧ word ≠ "x-gzip" ∧
          decompress headers body limit = .error (.unsupportedEncoding word)) ∧
      ∀ format text, Readers.handed limit headers body = .ok (format, text) →
        Gzip.Holds body text := by
  refine ⟨decompress_eq_asIs_iff, ?_, fun value hfirst hvalue hsome => ?_⟩
  · rw [decompress_eq_asIs_iff]
    cases hfirst : headers.first? "content-encoding" with
    | none =>
      rw [Headers.first?_eq_none_iff.mp hfirst]
      exact ⟨fun _ => nofun, fun _ => ⟨fun _ => nofun, fun _ => nofun⟩⟩
    | some value =>
      have hmem := Headers.mem_values_of_first? hfirst
      simp only [Option.mem_def, Option.some.injEq, forall_eq']
      constructor
      · intro h
        have hread : Text.Readable value := by
          by_contra hnot
          exact hnot (readable_of_namesNone (h.mp (fun hread => absurd hread hnot) value hmem))
        exact ⟨hread, fun hnone => h.mp fun _ => hnone⟩
      · rintro ⟨hread, hall⟩
        exact ⟨fun h => hall (h hread), fun h _ => h value hmem⟩
  · obtain ⟨word, hnames⟩ := exists_names value
    have hdecompress := decompress_of_names hfirst hvalue hnames body limit
    rw [if_neg (mt (namesNone_iff hnames).mpr hsome)] at hdecompress
    by_cases hgzip : word = "gzip" ∨ word = "x-gzip"
    · rw [if_pos hgzip] at hdecompress
      have hcoding := coding?_eq_some_iff.mpr ⟨value, hfirst, hvalue, hnames⟩
      have hnamed : (Names value "gzip" ∨ Names value "x-gzip") ∧ IsGzip headers := by
        rcases hgzip with rfl | rfl
        · exact ⟨Or.inl hnames, Or.inl hcoding⟩
        · exact ⟨Or.inr hnames, Or.inr hcoding⟩
      exact ⟨Or.inl ⟨hnamed.1, hdecompress⟩, fun _ _ h => (Readers.holds_of_handed hnamed.2 h).1⟩
    · rw [if_neg hgzip] at hdecompress
      refine ⟨Or.inr ⟨word, hnames, mt Or.inl hgzip, mt Or.inr hgzip, hdecompress⟩, ?_⟩
      intro format text h
      obtain ⟨-, plain, hplain, -⟩ := Readers.handed_eq_ok_iff.mp h
      rw [hdecompress] at hplain
      cases hplain

private def refused : Headers :=
  .ofList [("Content-Encoding", .ofString " BR\t"), ("Content-Encoding", .ofString "identity")]

/-- A coding that is not known is refused by its name, whatever else is named behind it. -/
theorem untouched_iff_of_br :
    decompress refused [1, 2, 3] 9 ≠ .ok .asIs ∧
      decompress refused [1, 2, 3] 9 = .error (.unsupportedEncoding "br") := by
  obtain ⟨hasIs, -, hcoded⟩ := untouched_iff refused [1, 2, 3] 9
  have hfirst : Bytes.ofString " BR\t" ∈ refused.first? "content-encoding" := by decide +kernel
  have hvalue : Text.Readable (.ofString " BR\t") := by decide +kernel
  have hsome : ¬ NamesNone (.ofString " BR\t") := by decide +kernel
  refine ⟨fun h => hsome (hasIs.mp h _ hfirst hvalue), ?_⟩
  rcases (hcoded _ hfirst hvalue hsome).1 with ⟨hgzip, -⟩ | ⟨word, hword, -, -, hrefused⟩
  · exact absurd hgzip (by decide +kernel)
  · obtain rfl : word = "br" := hword.eq (by decide +kernel : Names (.ofString " BR\t") "br")
    exact hrefused

/-- One digit, packed. -/
private def packedDigit : Bytes :=
  [31, 139, 8, 0, 0, 0, 0, 0, 0, 255, 51, 4, 0, 183, 239, 220, 131, 1, 0, 0, 0]

private def codedTwice : Headers := .ofList [("Content-Type", .ofString "application/json"),
  ("Content-Encoding", .ofString "identity"), ("Content-Encoding", .ofString "gzip")]

private def unread : Headers := .ofList [("Content-Type", .ofString "application/json"),
  ("Content-Encoding", [0xc3, 0xa9])]

/-- A packed body is handed on as it is if its coding is named by the second value, and so is any body
with a coding that cannot be read. -/
theorem untouched_though_coded :
    (decompress codedTwice packedDigit 9 = .ok .asIs ∧
      (∃ value ∈ codedTwice.values "content-encoding", Names value "gzip" ∧ ¬ NamesNone value) ∧
      Readers.handed 9 codedTwice packedDigit = .ok (.json, packedDigit)) ∧
    decompress unread [123, 125] 9 = .ok .asIs ∧
      (∃ value ∈ unread.values "content-encoding", ¬ Text.Readable value ∧ ¬ NamesNone value) ∧
      Readers.handed 9 unread [123, 125] = .ok (.json, [123, 125]) := by
  have htwice : decompress codedTwice packedDigit 9 = .ok .asIs :=
    decompress_eq_asIs_iff.mpr (by decide +kernel)
  have hunread : decompress unread [123, 125] 9 = .ok .asIs :=
    decompress_eq_asIs_iff.mpr (by decide +kernel)
  refine ⟨⟨htwice, ⟨.ofString "gzip", by decide +kernel⟩, ?_⟩,
    hunread, ⟨[0xc3, 0xa9], by decide +kernel⟩, ?_⟩
  · exact Readers.handed_eq_ok_iff.mpr ⟨by decide +kernel, .asIs, htwice, rfl⟩
  · exact Readers.handed_eq_ok_iff.mpr ⟨by decide +kernel, .asIs, hunread, rfl⟩

end Retry.Http
