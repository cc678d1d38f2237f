import Mathlib.Logic.Relation
import Retry.Proofs.Http.Encoding

namespace Retry.Http

variable {α : Type} {value value' : Bytes} {media name : String} {h h' : Headers}

section Essence

/-- Before its parameters, the value is this media type in any case, but for blanks around it. -/
def HasEssence (value : Bytes) (media : String) : Prop :=
  ∃ essence parameters, value.map Bytes.charOf = essence ++ parameters ∧ ';' ∉ essence ∧
    (∀ c ∈ parameters.head?, c = ';') ∧ Text.Spelt essence media

theorem hasEssence_iff : HasEssence value media ↔
    Text.lower (Text.trim ((value.map Bytes.charOf).takeWhile (· ≠ ';'))) = media.toList := by
  rw [← Text.spelt_iff]
  constructor
  · rintro ⟨essence, parameters, hvalue, hessence, hparameters, hmedia⟩
    have hall : ∀ c ∈ essence, decide (c ≠ ';') = true := fun c hc =>
      decide_eq_true fun heq => hessence (heq ▸ hc)
    have hnone : parameters.takeWhile (· ≠ ';') = [] := by
      cases parameters with
      | nil => rfl
      | cons c parameters => simp [hparameters c rfl]
    rwa [hvalue, List.takeWhile_append_of_pos hall, hnone, List.append_nil]
  · intro h
    refine ⟨_, _, List.takeWhile_append_dropWhile.symm, fun hmem => ?_, fun c hc => ?_, h⟩
    · have hother := List.mem_takeWhile_imp (p := fun c => decide (c ≠ ';')) hmem
      exact of_decide_eq_true hother rfl
    · have hnot := Text.of_mem_head?_dropWhile hc
      exact not_not.mp (of_decide_eq_false hnot)

instance (value : Bytes) (media : String) : Decidable (HasEssence value media) :=
  decidable_of_iff _ hasEssence_iff.symm

/-- The first Content-Type has this essence. If there is none, or it cannot be read, that is the empty
text. -/
def Headers.HasType (h : Headers) (media : String) : Prop :=
  (∃ value, h.first? "content-type" = some value ∧ Text.Readable value ∧ HasEssence value media) ∨
    (∀ value ∈ h.first? "content-type", ¬ Text.Readable value) ∧ media = ""

theorem getD_mediaType? {cs : List Char} (htext : h.text? "content-type" = some cs) :
    ((mediaType? h).getD "").toList = Text.lower (Text.trim (cs.takeWhile (· ≠ ';'))) := by
  rw [mediaType?, htext, Option.bind_some]
  dsimp only
  split
  · next hempty =>
    rw [List.isEmpty_iff.mp hempty]
    rfl
  · exact String.toList_ofList

theorem hasType_iff : h.HasType media ↔ (mediaType? h).getD "" = media := by
  cases hfirst : h.first? "content-type" with
  | none =>
    have hnone : mediaType? h = none := by rw [mediaType?, Headers.text?_of_absent hfirst]; rfl
    simp [Headers.HasType, hfirst, hnone, eq_comm]
  | some value =>
    by_cases hvalue : Text.Readable value
    · have hmedia := getD_mediaType? (Headers.text?_of_readable hfirst hvalue)
      rw [← String.toList_inj, hmedia, ← hasEssence_iff]
      simp [Headers.HasType, hfirst, hvalue]
    · have hnone : mediaType? h = none := by
        rw [mediaType?, Headers.text?_of_not_readable hfirst hvalue]
        rfl
      simp [Headers.HasType, hfirst, hvalue, hnone, eq_comm]

end Essence

section Formats

def EndsWith (media suffix : String) : Prop := ∃ front, media = front ++ suffix

theorem endsWith_iff {suffix : String} : endsWith media suffix = true ↔ EndsWith media suffix := by
  rw [endsWith, List.isSuffixOf_iff_suffix]
  constructor
  · rintro ⟨front, hfront⟩
    refine ⟨.ofList front, String.toList_inj.mp ?_⟩
    rw [String.toList_append, String.toList_ofList, hfront]
  · rintro ⟨front, rfl⟩
    rw [String.toList_append]
    exact List.suffix_append _ _

instance (media suffix : String) : Decidable (EndsWith media suffix) :=
  decidable_of_iff _ endsWith_iff

def IsJson (media : String) : Prop := media = "application/json" ∨ EndsWith media "+json"

def IsXml (media : String) : Prop :=
  media = "application/xml" ∨ media = "text/xml" ∨ EndsWith media "+xml"

instance : Decidable (IsJson media) := inferInstanceAs (Decidable (_ ∨ _))

instance : Decidable (IsXml media) := inferInstanceAs (Decidable (_ ∨ _ ∨ _))

theorem formatOf?_eq (media : String) : formatOf? media =
    if IsJson media then some .json else if IsXml media then some .xml else none := by
  refine if_congr ?_ rfl (if_congr ?_ rfl rfl)
  · rw [Bool.or_eq_true, decide_eq_true_eq, endsWith_iff, IsJson]
  · rw [Bool.or_eq_true, Bool.or_eq_true, decide_eq_true_eq, decide_eq_true_eq, endsWith_iff,
      or_assoc, IsXml]

/-- The last letters tell the two apart. -/
theorem not_isXml_of_isJson (h : IsJson media) : ¬ IsXml media := by
  have hlast : media.toList.getLast? = some 'n' := by
    rcases h with rfl | ⟨front, rfl⟩
    · decide
    · rw [String.toList_append, List.getLast?_append]
      rfl
  intro hxml
  have hlast' : media.toList.getLast? = some 'l' := by
    rcases hxml with rfl | rfl | ⟨front, rfl⟩
    · decide
    · decide
    · rw [String.toList_append, List.getLast?_append]
      rfl
  rw [hlast] at hlast'
  cases hlast'

end Formats

section Restated

/-- Which changes make no difference to what headers say of a body. -/
inductive Headers.Restated : Headers → Headers → Prop where
  /-- A further field, of another name or behind one of its name. -/
  | further {front back : List (String × Bytes)} {name : String} {value : Bytes}
      (hname : name = "content-type" ∨ name = "content-encoding" → ∃ first, (name, first) ∈ front) :
      Restated ⟨front ++ back⟩ ⟨front ++ (name, value) :: back⟩
  /-- A Content-Type in another case, with other blanks or parameters, that can be read if it could. -/
  | retyped {front back : List (String × Bytes)} {value value' : Bytes} {media : String}
      (hread : Text.Readable value ↔ Text.Readable value') (hmedia : HasEssence value media)
      (hmedia' : HasEssence value' media) :
      Restated ⟨front ++ ("content-type", value) :: back⟩ ⟨front ++ ("content-type", value') :: back⟩
  /-- A Content-Encoding in another case or with other blanks. -/
  | recoded {front back : List (String × Bytes)} {value value' : Bytes} {word : String}
      (hword : Names value word) (hword' : Names value' word) :
      Restated ⟨front ++ ("content-encoding", value) :: back⟩
        ⟨front ++ ("content-encoding", value') :: back⟩

namespace Headers

variable {front back : List (String × Bytes)} {wanted : String}

theorem first?_eq (h : Headers) (name : String) :
    h.first? name = (h.fields.find? (·.1 = name)).map (·.2) := by
  rw [first?, values, List.head?_map, List.head?_filter]

theorem first?_append (front back : List (String × Bytes)) (name : String) :
    first? ⟨front ++ back⟩ name = (first? ⟨front⟩ name).or (first? ⟨back⟩ name) := by
  simp only [first?_eq, List.find?_append, Option.map_or]

theorem first?_cons_self (name : String) (value : Bytes) (back : List (String × Bytes)) :
    first? ⟨(name, value) :: back⟩ name = some value := by
  simp [first?_eq]

theorem first?_cons_of_ne (hname : name ≠ wanted) (value : Bytes) (back : List (String × Bytes)) :
    first? ⟨(name, value) :: back⟩ wanted = first? ⟨back⟩ wanted := by
  simp [first?_eq, hname]

/-- A field is not the first of a name if it has another one, or stands behind one of that name. -/
theorem first?_inserted (hname : name = wanted → ∃ first, (wanted, first) ∈ front) (value : Bytes)
    (back : List (String × Bytes)) :
    first? ⟨front ++ (name, value) :: back⟩ wanted = first? ⟨front ++ back⟩ wanted := by
  rw [first?_append, first?_append]
  by_cases hsame : name = wanted
  · obtain ⟨first, hfirst⟩ := hname hsame
    have hsome : (first? ⟨front⟩ wanted).isSome = true := by
      rw [first?_eq, Option.isSome_map, List.find?_isSome]
      exact ⟨_, hfirst, decide_eq_true rfl⟩
    obtain ⟨value', hvalue'⟩ := Option.isSome_iff_exists.mp hsome
    rw [hvalue', Option.some_or, Option.some_or]
  · rw [first?_cons_of_ne hsame]

theorem first?_replaced_of_ne (hname : name ≠ wanted) (value value' : Bytes)
    (front back : List (String × Bytes)) :
    first? ⟨front ++ (name, value) :: back⟩ wanted =
      first? ⟨front ++ (name, value') :: back⟩ wanted := by
  rw [first?_inserted (fun h => absurd h hname), first?_inserted fun h => absurd h hname]

/-- A value that is replaced is the first of its name, or makes no difference to that. -/
theorem first?_replaced (name : String) (value value' : Bytes) (front back : List (String × Bytes)) :
    first? ⟨front ++ (name, value) :: back⟩ name = first? ⟨front ++ (name, value') :: back⟩ name ∨
      first? ⟨front ++ (name, value) :: back⟩ name = some value ∧
        first? ⟨front ++ (name, value') :: back⟩ name = some value' := by
  simp only [first?_append, first?_cons_self]
  cases first? ⟨front⟩ name with
  | none => exact Or.inr ⟨rfl, rfl⟩
  | some first => exact Or.inl rfl

theorem HasType.congr (hfirst : h.first? "content-type" = h'.first? "content-type") :
    h.HasType media ↔ h'.HasType media := by
  rw [HasType, HasType, hfirst]

theorem Restated.hasType_iff (hrestated : Restated h h') :
    h.HasType media ↔ h'.HasType media := by
  cases hrestated with
  | further hname =>
    exact HasType.congr (first?_inserted (fun hsame => hsame ▸ hname (Or.inl hsame)) _ _).symm
  | @retyped front back value value' essence hread hvalue hvalue' =>
    rcases first?_replaced "content-type" value value' front back with hsame | ⟨hfirst, hfirst'⟩
    · exact HasType.congr hsame
    · have hessence : HasEssence value media ↔ HasEssence value' media := by
        rw [hasEssence_iff, hasEssence_iff, hasEssence_iff.mp hvalue, hasEssence_iff.mp hvalue']
      simp only [HasType, hfirst, hfirst', Option.some.injEq, Option.mem_def, exists_eq_left',
        forall_eq', hread, hessence]
  | recoded _ _ => exact HasType.congr (first?_replaced_of_ne (by decide) _ _ _ _)

theorem coding?_congr (hfirst : h.first? "content-encoding" = h'.first? "content-encoding") :
    coding? h = coding? h' := by
  rw [coding?, coding?, text?, text?, hfirst]

theorem Restated.coding?_eq (hrestated : Restated h h') : coding? h = coding? h' := by
  cases hrestated with
  | further hname =>
    exact coding?_congr (first?_inserted (fun hsame => hsame ▸ hname (Or.inr hsame)) _ _).symm
  | retyped _ _ _ => exact coding?_congr (first?_replaced_of_ne (by decide) _ _ _ _)
  | @recoded front back value value' word hword hword' =>
    rcases first?_replaced "content-encoding" value value' front back with
      hsame | ⟨hfirst, hfirst'⟩
    · exact coding?_congr hsame
    · have hread : Text.Readable value ↔ Text.Readable value' :=
        (Text.readable_iff_of_spelt hword).trans (Text.readable_iff_of_spelt hword').symm
      by_cases hvalue : Text.Readable value
      · rw [coding?_eq_some_iff.mpr ⟨value, hfirst, hvalue, hword⟩,
          coding?_eq_some_iff.mpr ⟨value', hfirst', hread.mp hvalue, hword'⟩]
      · rw [coding?, coding?, text?_of_not_readable hfirst hvalue,
          text?_of_not_readable hfirst' (mt hread.mpr hvalue)]

end Headers

end Restated

section Decoder

variable {headers headers' : Headers}

theorem decoder_of_hasType (r : Readers α) (hmedia : headers.HasType media) (limit : Nat)
    (body : Bytes) : r.decoder limit headers body =
      if IsJson media then
        (decompress headers body limit).bind fun plain => r.read .json (plain.bytes body)
      else if IsXml media then
        (decompress headers body limit).bind fun plain => r.read .xml (plain.bytes body)
      else .error (.unsupportedType media) := by
  unfold Readers.decoder
  rw [hasType_iff.mp hmedia]
  by_cases hjson : IsJson media
  · simp only [formatOf?_eq, hjson, if_true]
    cases decompress headers body limit <;> rfl
  · by_cases hxml : IsXml media
    · simp only [formatOf?_eq, hjson, hxml, if_true, if_false]
      cases decompress headers body limit <;> rfl
    · simp only [formatOf?_eq, hjson, hxml, if_false]

theorem decompress_congr (hcoding : coding? headers = coding? headers') (body : Bytes) (limit : Nat) :
    decompress headers body limit = decompress headers' body limit := by
  rw [decompress, decompress, hcoding]

theorem decompress_ne_unsupportedType (headers : Headers) (body : Bytes) (limit : Nat)
    (text : String) : decompress headers body limit ≠ .error (.unsupportedType text) := by
  unfold decompress
  split
  · nofun
  · split
    · nofun
    · split
      · split <;> nofun
      · nofun

/-- Undoing a coding and reading find no fault with the media type. -/
theorem read_ne_unsupportedType (r : Readers α) (format : Format) (headers : Headers) (body : Bytes)
    (limit : Nat) (text : String) :
    ((decompress headers body limit).bind fun plain => r.read format (plain.bytes body)) ≠
      .error (.unsupportedType text) := by
  cases hplain : decompress headers body limit with
  | error fault =>
    intro h
    rw [Except.error.inj h] at hplain
    exact decompress_ne_unsupportedType headers body limit text hplain
  | ok plain =>
    intro h
    rcases Readers.of_read_error h with h | h <;> cases h

theorem decoder_restated (r : Readers α) (hrestated : Relation.EqvGen Headers.Restated headers headers')
    (limit : Nat) (body : Bytes) : r.decoder limit headers body = r.decoder limit headers' body := by
  induction hrestated with
  | rel h h' hstep =>
    have hmedia : h.HasType ((mediaType? h).getD "") := hasType_iff.mpr rfl
    rw [decoder_of_hasType r hmedia, decoder_of_hasType r (hstep.hasType_iff.mp hmedia),
      decompress_congr hstep.coding?_eq]
  | refl h => rfl
  | symm h h' _ ih => exact ih.symm
  | trans h h' h'' _ _ ih ih' => exact ih.trans ih'

/-- The first Content-Type, if it can be read, is normalised to one text, and else is empty; there is no
other one that decides. A body is undone and read as JSON if the text is a type of JSON, as XML if it is
one of XML, and it is never both; with any other text it is the text that is refused, whatever the body,
its coding and the limit. So headers that are restated give the same. -/
theorem media_type_decides (r : Readers α) (headers : Headers) :
    ∃ media, (∀ other, headers.HasType other ↔ other = media) ∧ ¬ (IsJson media ∧ IsXml media) ∧
      ∀ limit body,
        (IsJson media → r.decoder limit headers body =
          (decompress headers body limit).bind fun plain => r.read .json (plain.bytes body)) ∧
        (IsXml media → r.decoder limit headers body =
          (decompress headers body limit).bind fun plain => r.read .xml (plain.bytes body)) ∧
        (∀ text, r.decoder limit headers body = .error (.unsupportedType text) ↔
          ¬ IsJson media ∧ ¬ IsXml media ∧ text = media) ∧
        ∀ headers', Relation.EqvGen Headers.Restated headers headers' →
          r.decoder limit headers' body = r.decoder limit headers body := by
  have hmedia : headers.HasType ((mediaType? headers).getD "") := hasType_iff.mpr rfl
  generalize (mediaType? headers).getD "" = media at hmedia
  have hdecoder := decoder_of_hasType r hmedia
  refine ⟨media, fun other => ?_, fun h => not_isXml_of_isJson h.1 h.2, fun limit body =>
    ⟨fun hjson => ?_, fun hxml => ?_, fun text => ?_, fun headers' hrestated => ?_⟩⟩
  · rw [hasType_iff, hasType_iff.mp hmedia, eq_comm]
  · rw [hdecoder, if_pos hjson]
  · rw [hdecoder, if_neg fun hjson => not_isXml_of_isJson hjson hxml, if_pos hxml]
  · rw [hdecoder]
    split
    · next hjson =>
      exact ⟨fun h => absurd h (read_ne_unsupportedType r _ _ _ _ _), fun h => absurd hjson h.1⟩
    · next hjson =>
      split
      · next hxml =>
        exact ⟨fun h => absurd h (read_ne_unsupportedType r _ _ _ _ _), fun h => absurd hxml h.2.1⟩
      · next hxml =>
        rw [Except.error.injEq, DecodeFault.unsupportedType.injEq, eq_comm]
        exact ⟨fun h => ⟨hjson, hxml, h⟩, fun h => h.2.2⟩
  · exact (decoder_restated r hrestated limit body).symm

private def terse : List (String × Bytes) :=
  [("content-type", .ofString "application/json"), ("content-encoding", .ofString "identity")]

private def wordy : List (String × Bytes) :=
  [("content-type", .ofString "\tApplication/JSON ; charset=utf-8; profile=a;b"),
    ("content-encoding", .ofString "IDENTITY ")]

private theorem restated_wordy : Relation.EqvGen Headers.Restated ⟨terse⟩
    ⟨("x-trace", [0xff]) :: (wordy ++ [("content-type", .ofString "text/html")])⟩ := by
  have htype := @Headers.Restated.retyped [] terse.tail (.ofString "application/json")
    (.ofString "\tApplication/JSON ; charset=utf-8; profile=a;b") "application/json"
    (by decide +kernel) (by decide +kernel) (by decide +kernel)
  have hcoding := @Headers.Restated.recoded (wordy.take 1) [] (.ofString "identity")
    (.ofString "IDENTITY ") "identity" (by decide +kernel) (by decide +kernel)
  have hsecond := @Headers.Restated.further wordy [] "content-type" (.ofString "text/html")
    fun _ => ⟨_, List.mem_cons_self⟩
  have hother := @Headers.Restated.further [] (wordy ++ [("content-type", .ofString "text/html")])
    "x-trace" [0xff] fun h => absurd h (by decide)
  exact .trans _ _ _ (.rel _ _ htype) (.trans _ _ _ (.rel _ _ hcoding)
    (.trans _ _ _ (.rel _ _ hsecond) (.rel _ _ hother)))

/-- With parameters, blanks and capitals, and with a field and a further type that say something else, a
body is read as JSON all the same. -/
theorem media_type_decides_of_wordy :
    Relation.EqvGen Headers.Restated ⟨terse⟩
        ⟨("x-trace", [0xff]) :: (wordy ++ [("content-type", .ofString "text/html")])⟩ ∧
      (⟨some, fun _ => none⟩ : Readers Bytes).decoder 9
        ⟨("x-trace", [0xff]) :: (wordy ++ [("content-type", .ofString "text/html")])⟩ [49] =
          .ok [49] := by
  refine ⟨restated_wordy, ?_⟩
  obtain ⟨media, hmedia, -, hdecides⟩ := media_type_decides ⟨some, fun _ => none⟩ ⟨terse⟩
  obtain ⟨hjson, -, -, hrestated⟩ := hdecides 9 [49]
  have htype : Headers.HasType ⟨terse⟩ "application/json" :=
    Or.inl ⟨.ofString "application/json", by decide +kernel⟩
  have hmedia : "application/json" = media := (hmedia _).mp htype
  have hcoding : coding? ⟨terse⟩ = some "identity".toList := by decide +kernel
  rw [hrestated _ restated_wordy, hjson (hmedia ▸ by decide +kernel), decompress, hcoding]
  rfl

end Decoder

end Retry.Http
