import Retry.Proofs.Onward
import Retry.Task

namespace Retry

namespace Task

variable {η ε α : Type}

/-- The same work, leaving no note but one of each token right after it has been cancelled. -/
def audit : Task η ε α → Task Token ε α
  | finish r => finish r
  | note _ next => next.audit
  | sleep length next => sleep length next.audit
  | cancel token next => cancel token (note token next.audit)
  | untilDone ctx next => untilDone ctx fun r => (next r).audit
  | hang => hang

/-- The tokens that work cancels while a context watches it, each with the time right after. -/
def revoked (ctx : Context) (t : Task η ε α) (l : Timeline) : List (Timeline × Token) :=
  (t.audit.play ctx l).notes

/-- How work goes under a context: what it cancels, and what it leaves. -/
inductive Plays (ctx : Context) :
    Task η ε α → Timeline → List (Timeline × Token) → Played η ε α → Prop where
  | finish {r : Except ε α} {l : Timeline} : Plays ctx (finish r) l [] ⟨.finished r, [], l⟩
  | note {what : η} {next : Task η ε α} {l : Timeline} {cancels : List (Timeline × Token)}
      {q : Played η ε α} (h : Plays ctx next l cancels q) :
      Plays ctx (note what next) l cancels { q with notes := (l, what) :: q.notes }
  | cancel {token : Token} {next : Task η ε α} {l : Timeline} {cancels : List (Timeline × Token)}
      {q : Played η ε α} (h : Plays ctx next (l.cancel token) cancels q) :
      Plays ctx (cancel token next) l ((l.cancel token, token) :: cancels) q
  | sleep {length : Nat} {next : Task η ε α} {l : Timeline} {cancels : List (Timeline × Token)}
      {q : Played η ε α}
      (hwake : ∀ moment ∈ ctx.signalAt l, Duration.tick (l.now + length) ≤ moment)
      (h : Plays ctx next (l.advanceTo (Duration.tick (l.now + length))) cancels q) :
      Plays ctx (sleep length next) l cancels q
  | untilDone {other : Context} {next : Reason → Task η ε α} {l : Timeline} {wake : Nat}
      {reason : Reason} {cancels : List (Timeline × Token)} {q : Played η ε α}
      (hother : other.signalAt l = some wake)
      (hreason : other.signal (l.advanceTo wake) = some reason)
      (hwake : ∀ moment ∈ ctx.signalAt l, wake ≤ moment)
      (h : Plays ctx (next reason) (l.advanceTo wake) cancels q) :
      Plays ctx (untilDone other next) l cancels q
  | cutOff {t : Task η ε α} {l : Timeline} {moment : Nat} {reason : Reason}
      (hdone : ctx.signalAt l = some moment)
      (hreason : ctx.signal (l.advanceTo moment) = some reason) :
      Plays ctx t l [] ⟨.cutOff reason, [], l.advanceTo moment⟩
  | stuck {t : Task η ε α} {l : Timeline} (hlive : ctx.signalAt l = none) :
      Plays ctx t l [] ⟨.stuck, [], l⟩

theorem plays_cutAt {ctx : Context} {t : Task η ε α} {l : Timeline} {moment : Nat}
    (hdone : ctx.signalAt l = some moment) :
    Plays ctx t l (cutAt (ε := ε) (α := α) ctx moment l).notes (cutAt ctx moment l) := by
  obtain ⟨reason, hreason⟩ := Context.signal_of_signalAt hdone
  simp only [cutAt, hreason]
  exact .cutOff hdone hreason

/-- The rules tell how work is played. -/
theorem plays_play (ctx : Context) (t : Task η ε α) (l : Timeline) :
    Plays ctx t l (t.revoked ctx l) (t.play ctx l) := by
  unfold revoked
  induction t generalizing l with
  | finish r => exact .finish
  | note what next ih => exact .note (ih l)
  | cancel token next ih => exact .cancel (ih (l.cancel token))
  | sleep length next ih =>
    simp only [audit, play]
    cases hdone : ctx.signalAt l with
    | none =>
      exact .sleep (by simp [hdone]) (ih _)
    | some moment =>
      by_cases hlt : moment < Duration.tick (l.now + length)
      · simp only [hlt, if_true]
        exact plays_cutAt hdone
      · simp only [hlt, if_false]
        exact .sleep (by simpa [hdone] using hlt) (ih _)
  | untilDone other next ih =>
    simp only [audit, play]
    cases hwake : other.signalAt l with
    | none =>
      cases hdone : ctx.signalAt l with
      | none => exact .stuck hdone
      | some moment => exact plays_cutAt hdone
    | some wake =>
      obtain ⟨reason, hreason⟩ := Context.signal_of_signalAt hwake
      cases hdone : ctx.signalAt l with
      | none =>
        simp only [hreason]
        exact .untilDone hwake hreason (by simp [hdone]) (ih reason _)
      | some moment =>
        by_cases hlt : moment < wake
        · simp only [hlt, if_true]
          exact plays_cutAt hdone
        · simp only [hlt, if_false, hreason]
          exact .untilDone hwake hreason (by simpa [hdone] using hlt) (ih reason _)
  | hang =>
    simp only [audit, play]
    cases hdone : ctx.signalAt l with
    | none => exact .stuck hdone
    | some moment => exact plays_cutAt hdone

namespace Plays

variable {ctx : Context} {t : Task η ε α} {l : Timeline} {cancels : List (Timeline × Token)}
  {q : Played η ε α} {m : Nat}

/-- What is cancelled after work, and by whom. -/
theorem onward (h : Plays ctx t l cancels q) : l.Onward (cancels.map (·.2)) q.line := by
  induction h with
  | finish | stuck => exact Timeline.onward_refl _
  | note h ih => exact ih
  | cancel h ih => exact (Timeline.onward_cancel _ _).trans ih
  | sleep hwake h ih => exact (Timeline.onward_advanceTo _ _).trans ih
  | untilDone hother hreason hwake h ih => exact (Timeline.onward_advanceTo _ _).trans ih
  | cutOff => exact Timeline.onward_advanceTo _ _

theorem course (h : Plays ctx t l cancels q) : l.Course (q.notes.map (·.1)) q.line := by
  induction h with
  | finish | stuck => exact Timeline.course_nil (Timeline.before_refl _)
  | note h ih => exact Timeline.course_cons (Timeline.before_refl _) ih
  | cancel h ih => exact ih.of_before (Timeline.onward_cancel _ _).before
  | sleep hwake h ih => exact ih.of_before (Timeline.onward_advanceTo _ _).before
  | untilDone hother hreason hwake h ih =>
    exact ih.of_before (Timeline.onward_advanceTo _ _).before
  | cutOff => exact Timeline.course_nil (Timeline.onward_advanceTo _ _).before

/-- Work is over by the moment at which its context is due. -/
theorem over_by (h : Plays ctx t l cancels q) (hdue : ctx.DueBy l m) :
    q.line.now ≤ m ∧ q.ending ≠ .stuck := by
  -- Work goes on only by steps that end no later than the context is done.
  have hadvance : ∀ {l : Timeline} {wake : Nat}, (∀ moment ∈ ctx.signalAt l, wake ≤ moment) →
      ctx.DueBy l m → ctx.DueBy (l.advanceTo wake) m := by
    intro l wake hwake hdue
    have hnow := hdue.now_le
    obtain ⟨moment, hmoment, hle⟩ := id hdue
    refine hdue.later (Timeline.onward_advanceTo _ _).before ?_
    exact Nat.max_le.mpr ⟨hnow, Nat.le_trans (hwake moment hmoment) hle⟩
  induction h with
  | finish => exact ⟨hdue.now_le, nofun⟩
  | note h ih => exact ih hdue
  | cancel h ih => exact ih (hdue.later (Timeline.onward_cancel _ _).before hdue.now_le)
  | sleep hwake h ih => exact ih (hadvance hwake hdue)
  | untilDone hother hreason hwake h ih => exact ih (hadvance hwake hdue)
  | cutOff hdone hreason =>
    have hnow := hdue.now_le
    obtain ⟨moment, hmoment, hle⟩ := hdue
    rw [hdone] at hmoment
    cases hmoment
    exact ⟨Nat.max_le.mpr ⟨hnow, hle⟩, nofun⟩
  | stuck hlive =>
    obtain ⟨moment, hmoment, -⟩ := hdue
    rw [hlive] at hmoment
    cases hmoment

theorem over_by_of_note (h : Plays ctx t l cancels q) {line : Timeline} {what : η}
    (hnote : (line, what) ∈ q.notes) (hdue : ctx.DueBy line m) :
    q.line.now ≤ m ∧ q.ending ≠ .stuck := by
  induction h with
  | finish | cutOff | stuck => cases hnote
  | note h ih =>
    rcases List.mem_cons.mp hnote with heq | hlater
    · cases heq
      exact h.over_by hdue
    · exact ih hlater
  | cancel h ih | sleep _ h ih | untilDone _ _ _ h ih => exact ih hnote

/-- Work that cancels its own context is over in the same moment. -/
theorem over_of_cancel (h : Plays ctx t l cancels q) {line : Timeline} {token : Token}
    (hmem : (line, token) ∈ cancels) (hc : token.covers ctx.token = true) :
    q.line.now ≤ line.now ∧ q.ending ≠ .stuck := by
  induction h with
  | finish | cutOff | stuck => cases hmem
  | @cancel token' next l cancels q h ih =>
    rcases List.mem_cons.mp hmem with heq | hlater
    · cases heq
      have hdone : (l.cancel token).isCancelled ctx.token = true := by
        rw [Timeline.isCancelled_cancel, hc, Bool.true_or]
      exact h.over_by
        (Context.dueBy_of_isCancelled hdone (Nat.le_refl _))
    · exact ih hlater
  | note h ih | sleep _ h ih | untilDone _ _ _ h ih => exact ih hmem

end Plays

end Task

end Retry
