import Retry.Proofs.Http.Date.Instant
import Retry.Proofs.Http.Date.Text
import Retry.Proofs.Http.RetryAfter

namespace Retry.Http

/-- A text that is as it stands, at `now`, for a delay in nanoseconds. -/
inductive Means (now : WallTime) (core : List Char) : Nat → Prop where
  | seconds {n : Nat} (hn : Text.Numeral core n) (hpos : 1 ≤ n) (hfits : n ≤ 2 ^ 64 - 1) :
      Means now core (n * 1000000000)
  | moment {t delay : Nat} (ht : Date.Spells core t) (hlater : now.total < t * 1000000000)
      (hdelay : (delay : Int) = t * 1000000000 - now.total) : Means now core delay

section Texts

variable {core : List Char} {now : WallTime}

theorem decimal?_eq_some_iff {n : Nat} : decimal? core = some n ↔ Text.Numeral core n := by
  have hfold : core.foldl (fun value c => value * 10 + (c.toNat - 48)) 0 =
      Nat.ofDigitChars 10 core 0 := by
    rw [Nat.ofDigitChars_eq_foldl]
    congr 1
    funext value c
    rw [Nat.mul_comm]
    rfl
  rw [Text.numeral_iff, decimal?, hfold]
  by_cases hdigits : core ≠ [] ∧ ∀ c ∈ core, c.isDigit = true
  · have hif : (!core.isEmpty && core.all Char.isDigit) = true := by
      rw [Bool.and_eq_true, Bool.not_eq_true', List.isEmpty_eq_false_iff, List.all_eq_true]
      exact hdigits
    rw [if_pos hif, Option.some.injEq]
    exact ⟨fun h => ⟨hdigits.1, hdigits.2, h⟩, fun h => h.2.2⟩
  · have hif : ¬ (!core.isEmpty && core.all Char.isDigit) = true := by
      rw [Bool.and_eq_true, Bool.not_eq_true', List.isEmpty_eq_false_iff, List.all_eq_true]
      exact hdigits
    rw [if_neg hif]
    exact ⟨nofun, fun h => absurd ⟨h.1, h.2.1⟩ hdigits⟩

theorem bare_of_means {delay : Nat} (h : Means now core delay) : Text.Bare core := by
  cases h with
  | seconds hn hpos hfits =>
    have hall := Text.isDigit_of_numeral hn
    exact ⟨fun c hc => Text.isBlank_of_isDigit (hall c (List.mem_of_mem_head? hc)),
      fun c hc => Text.isBlank_of_isDigit (hall c (List.mem_of_getLast? hc))⟩
  | moment ht hlater hdelay =>
    have hvalid := Date.isValid_ofSeconds ht.1
    obtain ⟨-, f, -, rfl⟩ := ht
    exact Date.bare_text (Date.writable_of_isValid hvalid).weekday f

/-- A delay is asked for by the texts that mean one. -/
theorem delayOf?_eq_some_iff {delay : Nat} :
    delayOf? core now = some delay ↔ Means now core delay := by
  constructor
  · intro h
    rcases of_delayOf? h with ⟨n, hn, hpos, hfits, rfl⟩ | ⟨d, hd, hlater, rfl⟩
    · exact .seconds (decimal?_eq_some_iff.mp hn) hpos (by omega)
    · exact .moment (Date.spells_of_read? hd) hlater (by omega)
  · intro h
    cases h with
    | seconds hn hpos hfits =>
      exact delayOf?_of_decimal (decimal?_eq_some_iff.mpr hn) hpos (by omega) now
    | @moment t _ ht hlater hdelay =>
      have hread := Date.read?_of_spells ht
      have hseconds := Date.seconds_ofSeconds t
      rw [delayOf?_of_date hread (by rwa [hseconds]), hseconds]
      exact congrArg some (by omega)

end Texts

section Headers

variable {h : Headers} {now : WallTime} {core : List Char}

theorem exists_value_of_said (hsaid : h.Says core) :
    ∃ value, h.first? "retry-after" = some value ∧
      (∀ b ∈ value, (0x20 ≤ b ∧ b ≤ 0x7e) ∨ b = 0x09) ∧
        Text.Padded (value.map Bytes.charOf) core := by
  obtain ⟨value, text, hfirst, htext, rfl⟩ := hsaid
  obtain ⟨hvisible, rfl⟩ := Text.visible?_eq_some_iff.mp htext
  rw [String.toList_ofList]
  exact ⟨value, hfirst, fun b hb => Text.isVisible_iff.mp (hvisible b hb), Text.padded_trim _⟩

theorem says_of_value {value : Bytes} (hfirst : h.first? "retry-after" = some value)
    (hvisible : ∀ b ∈ value, (0x20 ≤ b ∧ b ≤ 0x7e) ∨ b = 0x09)
    (hpadded : Text.Padded (value.map Bytes.charOf) core) (hbare : Text.Bare core) :
    h.Says core := by
  refine ⟨value, _, hfirst, Text.visible?_eq_some_iff.mpr ⟨fun b hb => Text.isVisible_iff.mpr
    (hvisible b hb), rfl⟩, ?_⟩
  rw [String.toList_ofList]
  exact Text.trim_of_padded hpadded hbare

theorem retryAfter?_of_said (hsaid : h.Says core) (now : WallTime) :
    retryAfter? h now = delayOf? core now := by
  obtain ⟨text, htext, rfl⟩ := says_iff.mp hsaid
  rw [retryAfter?, htext, Option.bind_some]

/-- No text asks for a delay that means none. -/
theorem retryAfter?_eq_none (hsaid : h.Says core) (hnone : ∀ delay, ¬ Means now core delay) :
    retryAfter? h now = none := by
  rw [retryAfter?_of_said hsaid]
  exact Option.eq_none_iff_forall_ne_some.mpr fun delay hdelay =>
    hnone delay (delayOf?_eq_some_iff.mp hdelay)

end Headers

section Refused

variable {core : List Char} {now : WallTime} {delay : Nat}

theorem head_of_numeral {n : Nat} (h : Text.Numeral core n) :
    (core.head?.map Char.isDigit).getD false = true :=
  head_of_decimal (decimal?_eq_some_iff.mpr h)

theorem head_of_spells {t : Nat} (h : Date.Spells core t) :
    (core.head?.map Char.isDigit).getD false = false :=
  head_of_date (Date.read?_of_spells h)

theorem Means.pos (h : Means now core delay) : 0 < delay := by
  cases h with
  | seconds hn hpos hfits => omega
  | moment ht hlater hdelay => omega

theorem not_means_of_over {n : Nat} (hn : Text.Numeral core n) (hover : 2 ^ 64 ≤ n) :
    ¬ Means now core delay := by
  intro h
  cases h with
  | seconds hn' hpos hfits =>
    have hsame := (Text.ofDigitChars_numeral hn).symm.trans (Text.ofDigitChars_numeral hn')
    omega
  | moment ht hlater hdelay =>
    exact absurd ((head_of_numeral hn).symm.trans (head_of_spells ht)) (by decide)

theorem not_means_of_mixed {digits rest : List Char} {c : Char} (hne : digits ≠ [])
    (hdigits : ∀ a ∈ digits, a.isDigit = true) (hc : c.isDigit = false) :
    ¬ Means now (digits ++ c :: rest) delay := by
  intro h
  cases h with
  | seconds hn hpos hfits =>
    have hdigit := Text.isDigit_of_numeral hn c (List.mem_append_right _ List.mem_cons_self)
    exact absurd (hdigit.symm.trans hc) (by decide)
  | moment ht hlater hdelay =>
    obtain ⟨a, more, rfl⟩ := List.exists_cons_of_ne_nil hne
    have hhead : a.isDigit = false := head_of_spells ht
    exact absurd ((hdigits a List.mem_cons_self).symm.trans hhead) (by decide)

end Refused

/-- A delay is asked for by a first value of readable bytes that means it, but for blanks around. -/
theorem retryAfter?_iff_means {h : Headers} {now : WallTime} {delay : Nat} :
    retryAfter? h now = some delay ↔ ∃ value core, h.first? "retry-after" = some value ∧
      (∀ b ∈ value, (0x20 ≤ b ∧ b ≤ 0x7e) ∨ b = 0x09) ∧
        Text.Padded (value.map Bytes.charOf) core ∧ Means now core delay := by
  constructor
  · intro hdelay
    obtain ⟨text, htext, hmeans⟩ := Option.bind_eq_some_iff.mp hdelay
    obtain ⟨value, hfirst, hvisible, hpadded⟩ :=
      exists_value_of_said (says_iff.mpr ⟨text, htext, rfl⟩)
    exact ⟨value, _, hfirst, hvisible, hpadded, delayOf?_eq_some_iff.mp hmeans⟩
  · rintro ⟨value, core, hfirst, hvisible, hpadded, hmeans⟩
    have hsaid := says_of_value hfirst hvisible hpadded (bare_of_means hmeans)
    rw [retryAfter?_of_said hsaid]
    exact delayOf?_eq_some_iff.mpr hmeans

/-- A delay is asked for if and only if the first value is readable and, but for blanks around it, is
a number of seconds that is positive and fits 64 bits, or spells a later moment; and it is the exact
one, which is never zero. So nothing is asked for by a number that does not fit, nor by digits with
something else behind them, and no text that starts with a digit spells a moment. -/
theorem asks_exactly (h : Headers) (now : WallTime) :
    (∀ delay, retryAfter? h now = some delay ↔
      ∃ value core, h.first? "retry-after" = some value ∧
        (∀ b ∈ value, (0x20 ≤ b ∧ b ≤ 0x7e) ∨ b = 0x09) ∧
          Text.Padded (value.map Bytes.charOf) core ∧ Means now core delay) ∧
      retryAfter? h now ≠ some 0 ∧
      ∀ core, h.Says core →
        (∀ n, Text.Numeral core n → 2 ^ 64 ≤ n → retryAfter? h now = none) ∧
        (∀ digits c rest, core = digits ++ c :: rest → digits ≠ [] →
          (∀ a ∈ digits, a.isDigit = true) → c.isDigit = false → retryAfter? h now = none) ∧
        ∀ t, Date.Spells core t → (core.head?.map Char.isDigit).getD false = false ∧
          (now.total < t * 1000000000 →
            retryAfter? h now = some (t * 1000000000 - now.total).toNat) := by
  refine ⟨fun delay => retryAfter?_iff_means, fun hzero => ?_, fun core hsaid => ⟨fun n hn hover =>
    retryAfter?_eq_none hsaid fun delay => not_means_of_over hn hover, ?_, fun t ht =>
      ⟨head_of_spells ht, fun hlater => ?_⟩⟩⟩
  · obtain ⟨value, core, -, -, -, hmeans⟩ := retryAfter?_iff_means.mp hzero
    exact Nat.lt_irrefl 0 hmeans.pos
  · rintro digits c rest rfl hne hdigits hc
    exact retryAfter?_eq_none hsaid fun delay => not_means_of_mixed hne hdigits hc
  · rw [retryAfter?_of_said hsaid]
    exact delayOf?_eq_some_iff.mpr (.moment ht hlater (by omega))

/-- Seven seconds with two zeros before the seven and blanks around them. -/
theorem asks_exactly_of_padded_seven :
    retryAfter? ⟨[("retry-after", [32, 48, 48, 55, 9])]⟩ ⟨-1, 0⟩ = some 7000000000 := by
  obtain ⟨hasks, -, -⟩ := asks_exactly ⟨[("retry-after", [32, 48, 48, 55, 9])]⟩ ⟨-1, 0⟩
  refine (hasks _).mpr ⟨_, ['0', '0', '7'], rfl, by decide +kernel,
    ⟨[' '], ['\t'], rfl, List.forall_mem_singleton.mpr rfl, List.forall_mem_singleton.mpr rfl⟩, ?_⟩
  exact Means.seconds (n := 7) ⟨2, rfl⟩ (by decide) (by decide)

section Spellings

variable {now : WallTime} {d : Date} {core : List Char}

theorem head_text (h : 1 ≤ d.weekday ∧ d.weekday ≤ 7) (f : Date.Form) :
    ((f.text d).head?.map Char.isDigit).getD false = false := by
  obtain ⟨s, hshort, -⟩ := Date.short_first h
  obtain ⟨l, hlong, -⟩ := Date.long_first h
  have hs := @Date.isDigit_nameAt Date.shortDays (by decide) d.weekday s
    (List.mem_of_mem_head? hshort)
  have hl := @Date.isDigit_nameAt Date.longDays (by decide) d.weekday l
    (List.mem_of_mem_head? hlong)
  cases f <;> simp only [Date.Form.text, List.append_assoc, List.head?_append, hshort, hlong,
    Option.some_or, Option.map_some, Option.getD_some, hs, hl]

theorem delayOf?_of_read? (hread : Date.read? core = some d) :
    delayOf? core now = if now.total < d.seconds * 1000000000 then
      some (d.seconds * 1000000000 - now.total).toNat else none := by
  split
  · next hlater => exact delayOf?_of_date hread hlater
  · next hpast =>
    refine Option.eq_none_iff_forall_ne_some.mpr fun delay hdelay => ?_
    rcases of_delayOf? hdelay with ⟨n, hn, -⟩ | ⟨d', hd', hlater, -⟩
    · exact absurd ((head_of_decimal hn).symm.trans (head_of_date hread)) (by decide)
    · obtain rfl := Option.some.inj (hread.symm.trans hd')
      exact hpast hlater

theorem delayOf?_of_unread (hhead : (core.head?.map Char.isDigit).getD false = false)
    (hread : Date.read? core = none) : delayOf? core now = none := by
  rw [delayOf?, if_neg (by rw [hhead]; exact Bool.false_ne_true), hread, Option.bind_none, Option.filter_none]

/-- A date with the name of another weekday asks for nothing. -/
theorem delayOf?_of_weekday (hvalid : d.isValid = true) {f : Date.Form} (hf : f.Covers d)
    {weekday : Nat} (hweekday : 1 ≤ weekday ∧ weekday ≤ 7) (hother : weekday ≠ d.weekday) :
    delayOf? (f.text { d with weekday }) now = none := by
  have hwritable := Date.writable_of_isValid hvalid
  have hchanged : Date.Writable { d with weekday } :=
    ⟨hweekday, hwritable.month, hwritable.day, hwritable.year, hwritable.clock⟩
  have hcovers : f.Covers { d with weekday } := by cases f <;> exact hf
  have hinvalid : ¬ Date.isValid { d with weekday } = true := by
    intro hsame
    exact hother ((Date.isValid_iff.mp hsame).2.1.symm.trans (Date.isValid_iff.mp hvalid).2.1)
  refine delayOf?_of_unread (head_text hweekday f) ?_
  rw [Date.read?_text hchanged hcovers, if_neg hinvalid]

/-- A date with a day that its month does not have asks for nothing. -/
theorem delayOf?_of_day (hvalid : d.isValid = true) {f : Date.Form} (hf : f.Covers d) {day : Nat}
    (hday : ¬ (1 ≤ day ∧ day ≤ Calendar.monthDays d.year d.month)) :
    delayOf? (f.text { d with day }) now = none := by
  have hwritable := Date.writable_of_isValid hvalid
  have hchanged : Date.Writable { d with day } ∨ 100 ≤ day := by
    rcases Nat.lt_or_ge day 100 with hlt | hge
    · exact Or.inl ⟨hwritable.weekday, hwritable.month, hlt, hwritable.year, hwritable.clock⟩
    · exact Or.inr hge
  have hcovers : f.Covers { d with day } := by cases f <;> exact hf
  have hhead := @head_text { d with day } hwritable.weekday f
  exact delayOf?_of_unread hhead (Date.read?_text_of_day hchanged hcovers hday)

/-- Where a form has no room for the century, a date of 2070 or later is taken for an earlier one. -/
theorem delayOf?_dashed_of_past (hvalid : d.isValid = true) (hyear : 2070 ≤ d.year)
    (hpast : d.seconds * 1000000000 ≤ now.total) :
    delayOf? (Date.Form.dashed.text d) now = none := by
  have hwritable := Date.writable_of_isValid hvalid
  have hfull : (1970 ≤ Date.fullYear (d.year % 100) ∧ Date.fullYear (d.year % 100) < 2070) ∧
      Date.fullYear (d.year % 100) % 100 = d.year % 100 := by
    unfold Date.fullYear
    split <;> omega
  obtain ⟨hcovers, hmod⟩ := hfull
  have htext : Date.Form.dashed.text d =
      Date.Form.dashed.text { d with year := Date.fullYear (d.year % 100) } := by
    simp only [Date.Form.text, Date.clock, hmod]
  have hearlier : Date.Writable { d with year := Date.fullYear (d.year % 100) } :=
    ⟨hwritable.weekday, hwritable.month, hwritable.day, Nat.lt_trans hcovers.2 (by decide),
      hwritable.clock⟩
  have hread := Date.read?_text hearlier (f := .dashed) hcovers
  have hhead := head_text hwritable.weekday .dashed
  rw [htext] at hhead ⊢
  by_cases hexists : Date.isValid { d with year := Date.fullYear (d.year % 100) } = true
  · rw [if_pos hexists] at hread
    have hle := Date.seconds_fullYear_le hyear hexists
    rw [delayOf?_of_read? hread, if_neg (by omega)]
  · rw [if_neg hexists] at hread
    exact delayOf?_of_unread hhead hread

end Spellings

/-- In each form that can tell it, the spelling of a moment asks for the time until then, and for
nothing once the moment is there, which holds of a year without its century as well. With the name of
another weekday, or a day that the month does not have, nothing is asked for. -/
theorem spellings_agree (t : Nat) (hyear : (Date.ofSeconds t).year ≤ 9999) (f : Date.Form)
    (h : Headers) (now : WallTime) :
    let d := Date.ofSeconds t
    (f.Covers d → h.Says (f.text d) → retryAfter? h now =
      if now.total < t * 1000000000 then some (t * 1000000000 - now.total).toNat else none) ∧
    (h.Says (f.text d) → t * 1000000000 ≤ now.total → retryAfter? h now = none) ∧
    (∀ weekday, 1 ≤ weekday ∧ weekday ≤ 7 → weekday ≠ d.weekday → f.Covers d →
      h.Says (f.text { d with weekday }) → retryAfter? h now = none) ∧
    (∀ day, ¬ (1 ≤ day ∧ day ≤ Calendar.monthDays d.year d.month) → f.Covers d →
      h.Says (f.text { d with day }) → retryAfter? h now = none) := by
  intro d
  have hvalid : d.isValid = true := Date.isValid_ofSeconds hyear
  have hseconds : d.seconds = t := Date.seconds_ofSeconds t
  have hcovered : f.Covers d → h.Says (f.text d) → retryAfter? h now =
      if now.total < t * 1000000000 then some (t * 1000000000 - now.total).toNat else none := by
    intro hf hsaid
    have hread : Date.read? (f.text d) = some d := Date.read?_of_spells ⟨hyear, f, hf, rfl⟩
    rw [retryAfter?_of_said hsaid, delayOf?_of_read? hread, hseconds]
  refine ⟨hcovered, fun hsaid hpast => ?_, fun weekday hweekday hother hf hsaid => ?_,
    fun day hday hf hsaid => ?_⟩
  · by_cases hf : f.Covers d
    · rw [hcovered hf hsaid, if_neg (by omega)]
    · cases f with
      | fixed | spaced => exact absurd trivial hf
      | dashed =>
        have hfirst : 1970 ≤ d.year := Date.year_ofSeconds t
        have hlate : 2070 ≤ d.year := Nat.le_of_not_lt fun hearly => hf ⟨hfirst, hearly⟩
        rw [retryAfter?_of_said hsaid]
        exact delayOf?_dashed_of_past hvalid hlate (by rwa [hseconds])
  · rw [retryAfter?_of_said hsaid]
    exact delayOf?_of_weekday hvalid hf hweekday hother
  · rw [retryAfter?_of_said hsaid]
    exact delayOf?_of_day hvalid hf hday

private def asking (s : String) : Headers := .ofList [("Retry-After", .ofString s)]

private def leapDay : Date := ⟨2000, 2, 29, 0, 0, 0, 2⟩

private theorem ofSeconds_leapDay : Date.ofSeconds 951782400 = leapDay :=
  @Date.ofSeconds_seconds leapDay (by decide)

/-- 29 February 2000 without its century, half a second before it begins; the same as a Monday; and
the day after it, which was no 30 February. -/
theorem spellings_agree_on_leap_day :
    retryAfter? (asking "Tuesday, 29-Feb-00 00:00:00 GMT") ⟨951782399, 500000000⟩ =
        some 500000000 ∧
      retryAfter? (asking "Mon, 29 Feb 2000 00:00:00 GMT") ⟨0, 0⟩ = none ∧
      retryAfter? (asking "Tue Feb 30 00:00:00 2000") ⟨0, 0⟩ = none := by
  have hyear : (Date.ofSeconds 951782400).year ≤ 9999 := by
    rw [ofSeconds_leapDay]
    decide
  refine ⟨?_, ?_, ?_⟩
  · obtain ⟨hagree, -⟩ := spellings_agree 951782400 hyear .dashed
      (asking "Tuesday, 29-Feb-00 00:00:00 GMT") ⟨951782399, 500000000⟩
    rw [ofSeconds_leapDay] at hagree
    exact hagree ⟨by decide, by decide⟩ (says_iff.mpr
      ⟨"Tuesday, 29-Feb-00 00:00:00 GMT".toList, by decide +kernel, by decide +kernel⟩)
  · obtain ⟨-, -, hweekday, -⟩ := spellings_agree 951782400 hyear .fixed
      (asking "Mon, 29 Feb 2000 00:00:00 GMT") ⟨0, 0⟩
    rw [ofSeconds_leapDay] at hweekday
    exact hweekday 1 (by decide) (by decide) trivial (says_iff.mpr
      ⟨"Mon, 29 Feb 2000 00:00:00 GMT".toList, by decide +kernel, by decide +kernel⟩)
  · obtain ⟨-, -, -, hday⟩ := spellings_agree 951782400 hyear (.spaced true)
      (asking "Tue Feb 30 00:00:00 2000") ⟨0, 0⟩
    rw [ofSeconds_leapDay] at hday
    exact hday 30 (by decide) trivial (says_iff.mpr
      ⟨"Tue Feb 30 00:00:00 2000".toList, by decide +kernel, by decide +kernel⟩)

end Retry.Http
