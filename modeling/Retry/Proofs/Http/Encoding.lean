import Retry.Proofs.Http.Decoding
import Retry.Proofs.Text

namespace Retry.Http

variable {h : Headers} {name word : String} {body : Bytes} {limit : Nat}

theorem Headers.first?_eq_none_iff : h.first? name = none ↔ h.values name = [] :=
  List.head?_eq_none_iff

theorem Headers.mem_values_of_first? {value : Bytes} (hfirst : h.first? name = some value) :
    value ∈ h.values name := List.mem_of_mem_head? hfirst

theorem Headers.text?_of_readable {value : Bytes} (hfirst : h.first? name = some value)
    (hvalue : Text.Readable value) : h.text? name = some (value.map Bytes.charOf) := by
  rw [text?, hfirst, Option.bind_some, Text.visible?_of_readable hvalue, Option.map_some,
    String.toList_ofList]

theorem Headers.text?_of_not_readable {value : Bytes} (hfirst : h.first? name = some value)
    (hvalue : ¬ Text.Readable value) : h.text? name = none := by
  rw [text?, hfirst, Option.bind_some, Text.visible?_of_not_readable hvalue, Option.map_none]

theorem Headers.text?_of_absent (hfirst : h.first? name = none) : h.text? name = none := by
  rw [text?, hfirst, Option.bind_none]

/-- The value is the word in any case, but for blanks around it. -/
def Names (value : Bytes) (word : String) : Prop := Text.Spelt (value.map Bytes.charOf) word

instance (value : Bytes) (word : String) : Decidable (Names value word) :=
  inferInstanceAs (Decidable (Text.Spelt _ _))

theorem coding?_eq_some_iff : coding? h = some word.toList ↔
    ∃ value, h.first? "content-encoding" = some value ∧ Text.Readable value ∧ Names value word := by
  unfold coding?
  cases hfirst : h.first? "content-encoding" with
  | none =>
    rw [Headers.text?_of_absent hfirst]
    exact ⟨nofun, nofun⟩
  | some value =>
    by_cases hvalue : Text.Readable value
    · rw [Headers.text?_of_readable hfirst hvalue, Option.map_some, Option.some.injEq,
        ← Text.spelt_iff]
      refine ⟨fun hnames => ⟨value, rfl, hvalue, hnames⟩, ?_⟩
      rintro ⟨_, ⟨⟩, -, hnames⟩
      exact hnames
    · rw [Headers.text?_of_not_readable hfirst hvalue]
      refine ⟨nofun, ?_⟩
      rintro ⟨_, ⟨⟩, hread, -⟩
      exact absurd hread hvalue

theorem coding?_eq_none_iff : coding? h = none ↔
    ∀ value ∈ h.first? "content-encoding", ¬ Text.Readable value := by
  constructor
  · intro hnone value hfirst hvalue
    rw [coding?, Headers.text?_of_readable hfirst hvalue] at hnone
    cases hnone
  · intro hall
    unfold coding?
    cases hfirst : h.first? "content-encoding" with
    | none => rw [Headers.text?_of_absent hfirst, Option.map_none]
    | some value => rw [Headers.text?_of_not_readable hfirst (hall value hfirst), Option.map_none]

/-- The first Content-Encoding is the word, in any case, but for blanks around it. -/
def Headers.Declares (h : Headers) (word : String) : Prop :=
  ∃ value core, h.first? "content-encoding" = some value ∧
    Text.Padded (value.map Bytes.charOf) core ∧ Text.lower core = word.toList

/-- A word without blanks, in readable characters, is declared by what is read of the first value. -/
theorem declares_iff (hword : (word.toList.all fun c => !Text.isBlank c && Text.isPrintable c) = true) :
    h.Declares word ↔ coding? h = some word.toList := by
  simp only [List.all_eq_true, Bool.and_eq_true, Bool.not_eq_true'] at hword
  rw [coding?_eq_some_iff]
  constructor
  · rintro ⟨value, core, hfirst, hpadded, hlower⟩
    have hnames : Names value word := ⟨core, hpadded,
      Text.bare_of_lower fun c hc => (hword c (hlower ▸ hc)).1, hlower⟩
    have hprintable : word.toList.all Text.isPrintable = true :=
      List.all_eq_true.mpr fun c hc => (hword c hc).2
    exact ⟨value, hfirst, (Text.readable_iff_of_spelt hnames).mpr hprintable, hnames⟩
  · rintro ⟨value, hfirst, -, core, hpadded, -, hlower⟩
    exact ⟨value, core, hfirst, hpadded, hlower⟩

theorem isGzip_iff : IsGzip h ↔ h.Declares "gzip" ∨ h.Declares "x-gzip" := by
  rw [declares_iff (by decide), declares_iff (by decide), IsGzip]

end Retry.Http
