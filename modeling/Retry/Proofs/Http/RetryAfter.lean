import Mathlib.Algebra.Order.Ring.Nat
import Retry.Http.RetryAfter

namespace Retry.Http

namespace Date

theorem named_of_digit {names : List (List Char)} {c : Char} (hc : c.isDigit = true)
    (hnames : ∀ name ∈ names, name.head?.map Char.isDigit = some false) (first : Nat)
    (cs : List Char) : named names first (c :: cs) = none := by
  induction names generalizing first with
  | nil => rfl
  | cons name names ih =>
    obtain ⟨a, ha, hdigit⟩ := Option.map_eq_some_iff.mp (hnames name List.mem_cons_self)
    obtain ⟨as, rfl⟩ := List.head?_eq_some_iff.mp ha
    have hne : (a == c) = false := by
      refine beq_eq_false_iff_ne.mpr ?_
      rintro rfl
      rw [hdigit] at hc
      cases hc
    simp only [named, List.isPrefixOf, hne, Bool.false_and, Bool.false_eq_true, if_false]
    exact ih (fun other hother => hnames other (List.mem_cons_of_mem _ hother)) _

/-- All dates begin with the name of a day, and no such name with a digit. -/
theorem read?_of_digit {c : Char} (hc : c.isDigit = true) (cs : List Char) :
    read? (c :: cs) = none := by
  have hshort : named shortDays 1 (c :: cs) = none :=
    named_of_digit hc (by decide) 1 cs
  have hlong : named longDays 1 (c :: cs) = none :=
    named_of_digit hc (by decide) 1 cs
  have hfixed : whole fixed (c :: cs) = none := by
    simp only [whole, fixed, hshort, Option.bind_eq_bind, Option.bind_none]
  have hdashed : whole dashed (c :: cs) = none := by
    simp only [whole, dashed, hlong, Option.bind_eq_bind, Option.bind_none]
  have hspaced : whole spaced (c :: cs) = none := by
    simp only [whole, spaced, hshort, Option.bind_eq_bind, Option.bind_none]
  rw [read?, hfixed, hdashed, hspaced]
  rfl

end Date

theorem head_of_decimal {cs : List Char} {n : Nat} (h : decimal? cs = some n) :
    (cs.head?.map Char.isDigit).getD false = true := by
  unfold decimal? at h
  split at h
  · next hdigits =>
    obtain ⟨hsome, hall⟩ := Bool.and_eq_true_iff.mp hdigits
    cases cs with
    | nil => cases hsome
    | cons c cs => exact List.all_eq_true.mp hall c List.mem_cons_self
  · cases h

theorem head_of_date {cs : List Char} {d : Date} (h : Date.read? cs = some d) :
    (cs.head?.map Char.isDigit).getD false = false := by
  cases cs with
  | nil => rfl
  | cons c cs =>
    cases hdigit : c.isDigit with
    | false => exact hdigit
    | true =>
      rw [Date.read?_of_digit hdigit] at h
      cases h

/-- The first Retry-After value is readable, and this is its text without the blanks around it. -/
def Headers.Says (h : Headers) (cs : List Char) : Prop :=
  ∃ value text, h.first? "retry-after" = some value ∧ Bytes.visible? value = some text ∧
    Text.trim text.toList = cs

/-- These headers ask, at `now`, for a delay. -/
inductive Headers.Asks (h : Headers) (now : WallTime) : Nat → Prop where
  | seconds {cs : List Char} {n : Nat} (hread : h.Says cs) (hn : decimal? cs = some n)
      (hpos : 0 < n) (hfits : n < 2 ^ 64) : Asks h now (n * 1000000000)
  | date {cs : List Char} {d : Date} (hread : h.Says cs) (hd : Date.read? cs = some d)
      (hlater : now.total < d.seconds * 1000000000) :
      Asks h now (d.seconds * 1000000000 - now.total).toNat

theorem delayOf?_of_decimal {cs : List Char} {n : Nat} (hn : decimal? cs = some n) (hpos : 0 < n)
    (hfits : n < 2 ^ 64) (now : WallTime) : delayOf? cs now = some (n * 1000000000) := by
  have hpositive : 0 < n * 1000000000 := Nat.mul_pos hpos (by decide)
  have hword : n < 1 <<< 64 := hfits
  simp only [delayOf?, head_of_decimal hn, if_true, seconds?, hn, Option.filter_some, hword,
    decide_true, Option.map_some, hpositive]

theorem delayOf?_of_date {cs : List Char} {d : Date} (hd : Date.read? cs = some d) {now : WallTime}
    (hlater : now.total < d.seconds * 1000000000) :
    delayOf? cs now = some (d.seconds * 1000000000 - now.total).toNat := by
  have hgap : 0 ≤ (d.seconds : Int) * 1000000000 - now.total := by omega
  have hpositive : 0 < ((d.seconds : Int) * 1000000000 - now.total).toNat := by omega
  simp only [delayOf?, head_of_date hd, Bool.false_eq_true, if_false, hd, Option.bind_some, until?,
    hgap, if_true, Option.filter_some, hpositive, decide_true]

/-- Some delay is asked for by a text if and only if it is one of these two. -/
theorem of_delayOf? {cs : List Char} {now : WallTime} {delay : Nat}
    (h : delayOf? cs now = some delay) :
    (∃ n, decimal? cs = some n ∧ 0 < n ∧ n < 2 ^ 64 ∧ delay = n * 1000000000) ∨
      ∃ d, Date.read? cs = some d ∧ now.total < d.seconds * 1000000000 ∧
        delay = (d.seconds * 1000000000 - now.total).toNat := by
  obtain ⟨hdelay, hpos⟩ := Option.filter_eq_some_iff.mp h
  rw [decide_eq_true_iff] at hpos
  split at hdelay
  · obtain ⟨n, hn, rfl⟩ := Option.map_eq_some_iff.mp hdelay
    obtain ⟨hdecimal, hfits⟩ := Option.filter_eq_some_iff.mp hn
    exact Or.inl ⟨n, hdecimal, by omega, of_decide_eq_true hfits, rfl⟩
  · obtain ⟨d, hd, hgap⟩ := Option.bind_eq_some_iff.mp hdelay
    simp only [until?] at hgap
    split at hgap
    · obtain rfl := Option.some.inj hgap
      exact Or.inr ⟨d, hd, by omega, rfl⟩
    · cases hgap

theorem says_iff {h : Headers} {cs : List Char} :
    h.Says cs ↔ ∃ text, h.text? "retry-after" = some text ∧ Text.trim text = cs := by
  unfold Headers.Says Headers.text?
  constructor
  · rintro ⟨value, text, hfirst, htext, rfl⟩
    exact ⟨text.toList, by rw [hfirst, Option.bind_some, htext, Option.map_some], rfl⟩
  · rintro ⟨text, htext, rfl⟩
    obtain ⟨value, hfirst, hvalue⟩ := Option.bind_eq_some_iff.mp htext
    obtain ⟨shown, hshown, rfl⟩ := Option.map_eq_some_iff.mp hvalue
    exact ⟨value, shown, hfirst, hshown, rfl⟩

theorem retryAfter?_iff {h : Headers} {now : WallTime} {delay : Nat} :
    retryAfter? h now = some delay ↔ h.Asks now delay := by
  constructor
  · intro hdelay
    obtain ⟨text, htext, hdelay⟩ := Option.bind_eq_some_iff.mp hdelay
    have hread : h.Says (Text.trim text) := says_iff.mpr ⟨text, htext, rfl⟩
    rcases of_delayOf? hdelay with ⟨n, hn, hpos, hfits, rfl⟩ | ⟨d, hd, hlater, rfl⟩
    · exact .seconds hread hn hpos hfits
    · exact .date hread hd hlater
  · intro hasks
    cases hasks with
    | seconds hread hn hpos hfits =>
      obtain ⟨text, htext, rfl⟩ := says_iff.mp hread
      rw [retryAfter?, htext, Option.bind_some]
      exact delayOf?_of_decimal hn hpos hfits now
    | date hread hd hlater =>
      obtain ⟨text, htext, rfl⟩ := says_iff.mp hread
      rw [retryAfter?, htext, Option.bind_some]
      exact delayOf?_of_date hd hlater

end Retry.Http

namespace Retry.HttpFault

/-- Only a rejected response asks for a delay. -/
def Asks (f : HttpFault) (now : WallTime) (delay : Nat) : Prop :=
  ∃ rejection, f = .status rejection ∧ rejection.headers.Asks now delay

theorem retryAfter?_eq_some_iff {f : HttpFault} {now : WallTime} {delay : Nat} :
    f.retryAfter? now = some delay ↔ f.Asks now delay := by
  unfold Asks
  cases f with
  | status rejection =>
    rw [retryAfter?, Http.retryAfter?_iff]
    exact ⟨fun h => ⟨rejection, rfl, h⟩, fun ⟨_, heq, h⟩ => HttpFault.status.inj heq ▸ h⟩
  | transport | decode | request | context => exact ⟨nofun, nofun⟩

end Retry.HttpFault
