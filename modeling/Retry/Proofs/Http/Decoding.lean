import Retry.Http.Decoding
import Retry.Proofs.Gzip.Member

namespace Retry.Http

/-- A gzip body is declared. -/
def IsGzip (h : Headers) : Prop := coding? h = some "gzip".toList ∨ coding? h = some "x-gzip".toList

variable {headers : Headers} {body data : Bytes} {limit : Nat}

theorem decompress_of_isGzip (h : IsGzip headers) (body : Bytes) (limit : Nat) :
    decompress headers body limit = match Gzip.unpack limit body with
      | .ok data => .ok (.unpacked data)
      | .error .tooLarge => .error (.tooLarge limit)
      | .error (.faulty fault) => .error (.decompress (ioFaultOf fault)) := by
  unfold decompress
  rcases h with hcoding | hcoding
  · rw [hcoding]
    rfl
  · rw [hcoding]
    rfl

theorem decompress_of_holds (hgzip : IsGzip headers) (hholds : Gzip.Holds body data) (limit : Nat) :
    decompress headers body limit =
      if data.length ≤ limit then .ok (.unpacked data) else .error (.tooLarge limit) := by
  rw [decompress_of_isGzip hgzip, Gzip.unpack_of_holds hholds]
  by_cases hwithin : data.length ≤ limit
  · simp only [hwithin, if_true]
  · simp only [hwithin, if_false]

theorem holds_of_decompress {plain : Plain} (hgzip : IsGzip headers)
    (h : decompress headers body limit = .ok plain) :
    ∃ data, plain = .unpacked data ∧ Gzip.Holds body data ∧ data.length ≤ limit := by
  rw [decompress_of_isGzip hgzip] at h
  cases hunpack : Gzip.unpack limit body with
  | ok data =>
    rw [hunpack] at h
    obtain ⟨hholds, hwithin⟩ := Gzip.holds_of_unpack hunpack
    exact ⟨data, (Except.ok.inj h).symm, hholds, hwithin⟩
  | error refusal =>
    rw [hunpack] at h
    cases refusal <;> cases h

/-- What comes of a body that is not too large is not too large. -/
theorem length_decompress {plain : Plain} (h : decompress headers body limit = .ok plain)
    (hbody : body.length ≤ limit) : (plain.bytes body).length ≤ limit := by
  unfold decompress at h
  split at h
  · obtain rfl := Except.ok.inj h
    exact hbody
  · next coding hcoding =>
    split at h
    · obtain rfl := Except.ok.inj h
      exact hbody
    · split at h
      · next hgzip =>
        split at h
        · next data hunpack =>
          obtain rfl := Except.ok.inj h
          exact (Gzip.holds_of_unpack hunpack).2
        · cases h
        · cases h
      · cases h

namespace Readers

variable {α : Type}

/-- What a decoder hands to a reader, for a body with these headers. -/
def handed (limit : Nat) (headers : Headers) (body : Bytes) :
    Except DecodeFault (Format × Bytes) :=
  let media := (mediaType? headers).getD ""
  match formatOf? media with
  | none => .error (.unsupportedType media)
  | some format =>
    (decompress headers body limit).map fun plain => (format, plain.bytes body)

/-- A decoder reads what it hands to a reader, and does nothing else with a body. -/
theorem decoder_eq (r : Readers α) (limit : Nat) (headers : Headers) (body : Bytes) :
    r.decoder limit headers body =
      (handed limit headers body).bind fun text => r.read text.1 text.2 := by
  unfold decoder handed
  dsimp only
  cases formatOf? ((mediaType? headers).getD "") with
  | none => rfl
  | some format => cases decompress headers body limit <;> rfl

theorem handed_eq_ok_iff {format : Format} {text : Bytes} :
    handed limit headers body = .ok (format, text) ↔
      formatOf? ((mediaType? headers).getD "") = some format ∧
        ∃ plain, decompress headers body limit = .ok plain ∧ plain.bytes body = text := by
  unfold handed
  dsimp only
  cases formatOf? ((mediaType? headers).getD "") with
  | none => exact ⟨nofun, nofun⟩
  | some format' =>
    cases decompress headers body limit with
    | error fault => exact ⟨nofun, by rintro ⟨-, _, h, -⟩; cases h⟩
    | ok plain => simp [Except.map]

theorem length_handed {text : Format × Bytes} (h : handed limit headers body = .ok text)
    (hbody : body.length ≤ limit) : text.2.length ≤ limit := by
  obtain ⟨-, plain, hplain, hbytes⟩ := handed_eq_ok_iff.mp h
  rw [← hbytes]
  exact length_decompress hplain hbody

/-- Readers are not asked about more bytes than a limit allows, so what they would say of such is all
one. -/
theorem decoder_congr {r r' : Readers α} (h : ∀ format text, text.length ≤ limit →
    r.read format text = r'.read format text) (hbody : body.length ≤ limit) :
    r.decoder limit headers body = r'.decoder limit headers body := by
  rw [decoder_eq, decoder_eq]
  cases hhanded : handed limit headers body with
  | error fault => rfl
  | ok text => exact h text.1 text.2 (length_handed hhanded hbody)

/-- Reading finds fault with the text alone. -/
theorem of_read_error {r : Readers α} {format : Format} {text : Bytes} {fault : DecodeFault}
    (h : r.read format text = .error fault) : fault = .json ∨ fault = .xml := by
  cases format with
  | json =>
    rw [read] at h
    cases hvalue : r.json text with
    | none => exact Or.inl (Except.error.inj (hvalue ▸ h)).symm
    | some v => exact absurd (hvalue ▸ h) nofun
  | xml =>
    rw [read] at h
    cases hvalue : r.xml text with
    | none => exact Or.inr (Except.error.inj (hvalue ▸ h)).symm
    | some v => exact absurd (hvalue ▸ h) nofun

/-- Reading is never what finds a body too large. -/
theorem read_ne_tooLarge (r : Readers α) (format : Format) (text : Bytes) (limit : Nat) :
    r.read format text ≠ .error (.tooLarge limit) := by
  intro h
  rcases of_read_error h with h | h <;> cases h

theorem handed_of_holds {format : Format}
    (hformat : formatOf? ((mediaType? headers).getD "") = some format)
    (hgzip : IsGzip headers) (hholds : Gzip.Holds body data) (hwithin : data.length ≤ limit) :
    handed limit headers body = .ok (format, data) := by
  simp only [handed, hformat, decompress_of_holds hgzip hholds, hwithin, if_true]
  rfl

/-- What is handed on of a declared gzip body is the data of its member. -/
theorem holds_of_handed {format : Format} {text : Bytes} (hgzip : IsGzip headers)
    (h : handed limit headers body = .ok (format, text)) :
    Gzip.Holds body text ∧ text.length ≤ limit := by
  obtain ⟨-, plain, hplain, rfl⟩ := handed_eq_ok_iff.mp h
  obtain ⟨data, rfl, hholds, hwithin⟩ := holds_of_decompress hgzip hplain
  exact ⟨hholds, hwithin⟩

/-- A value of a declared gzip body is one of the data of its member. -/
theorem holds_of_decoder {r : Readers α} {v : α} (hgzip : IsGzip headers)
    (h : r.decoder limit headers body = .ok v) :
    ∃ data, Gzip.Holds body data ∧ data.length ≤ limit := by
  rw [decoder_eq] at h
  cases hhanded : handed limit headers body with
  | error fault =>
    rw [hhanded] at h
    cases h
  | ok text => exact ⟨text.2, holds_of_handed hgzip hhanded⟩

end Readers

end Retry.Http
