import Retry.Proofs.Time
import Retry.Task

namespace Retry

namespace Task

variable {η ε α : Type}

/-- The end of work that nobody watches, and the time it comes at; `none` when it never ends. -/
def alone : Task η ε α → Timeline → Option (Except ε α × Timeline)
  | finish r, l => some (r, l)
  | note _ next, l => next.alone l
  | sleep length next, l => next.alone (l.advanceTo (Duration.tick (l.now + length)))
  | cancel token next, l => next.alone (l.cancel token)
  | untilDone other next, l =>
    match other.signalAt l with
    | some wake =>
      let l := l.advanceTo wake
      match other.signal l with
      | some reason => (next reason).alone l
      | none => none
    | none => none
  | hang, _ => none

theorem now_le_alone {t : Task η ε α} {l l' : Timeline} {r : Except ε α}
    (h : t.alone l = some (r, l')) : l.now ≤ l'.now := by
  induction t generalizing l with
  | finish result =>
    simp only [alone, Option.some.injEq, Prod.mk.injEq] at h
    exact Nat.le_of_eq (congrArg Timeline.now h.2)
  | note what next ih => exact ih h
  | sleep length next ih => exact Nat.le_trans (l.le_now_advanceTo _) (ih h)
  | cancel token next ih => exact ih (l := l.cancel token) h
  | untilDone other next ih =>
    simp only [alone] at h
    split at h
    · next wake hwake =>
      split at h
      · next reason hreason => exact Nat.le_trans (l.le_now_advanceTo wake) (ih reason h)
      · cases h
    · cases h
  | hang => cases h

theorem wake_le_alone {other : Context} {next : Reason → Task η ε α} {l l' : Timeline} {wake : Nat}
    {r : Except ε α} (hwake : other.signalAt l = some wake)
    (h : (untilDone other next).alone l = some (r, l')) : wake ≤ l'.now := by
  simp only [alone, hwake] at h
  split at h
  · exact Nat.le_trans (l.le_advanceTo_now wake) (now_le_alone h)
  · cases h

/-- How work ends under a context, given how it would end on its own. -/
inductive Watched (ctx : Context) (own : Option (Except ε α × Timeline)) :
    Ending ε α → Timeline → Prop where
  | finished {r : Except ε α} {line : Timeline} (h : own = some (r, line)) :
      Watched ctx own (.finished r) line
  | cutOff {reason : Reason} {line : Timeline} (h : ctx.signal line = some reason)
      (hlate : ∀ r l', own = some (r, l') → line.now < l'.now) :
      Watched ctx own (.cutOff reason) line
  | stuck {line : Timeline} (h : own = none) : Watched ctx own .stuck line

theorem watched_cutAt {ctx : Context} {own : Option (Except ε α × Timeline)} {m : Nat}
    {l : Timeline} (hm : ctx.signalAt l = some m) (hlate : ∀ r l', own = some (r, l') → m < l'.now) :
    Watched ctx own (cutAt (η := η) ctx m l).ending
      (cutAt (η := η) (ε := ε) (α := α) ctx m l).line := by
  obtain ⟨reason, hreason⟩ := Context.signal_of_signalAt hm
  have hnow : (l.advanceTo m).now = m := Nat.max_eq_right (Context.now_le_signalAt hm)
  simp only [cutAt, hreason]
  refine .cutOff hreason ?_
  rw [hnow]
  exact hlate

/-- Watched work ends as it would on its own, unless its context is done strictly before. -/
theorem watched_play (ctx : Context) (t : Task η ε α) (l : Timeline) :
    Watched ctx (t.alone l) (t.play ctx l).ending (t.play ctx l).line := by
  induction t generalizing l with
  | finish r => exact .finished rfl
  | note what next ih => exact ih l
  | cancel token next ih => exact ih (l.cancel token)
  | sleep length next ih =>
    simp only [play]
    split
    · next m hm =>
      split
      · next hlt =>
        refine watched_cutAt hm fun r l' h => Nat.lt_of_lt_of_le hlt ?_
        exact Nat.le_trans (l.le_advanceTo_now _) (now_le_alone h)
      · exact ih _
    · exact ih _
  | untilDone other next ih =>
    cases hwake : other.signalAt l with
    | none =>
      cases hm : ctx.signalAt l with
      | none => simpa only [play, alone, hwake, hm] using .stuck rfl
      | some m =>
        simp only [play, alone, hwake, hm]
        exact watched_cutAt hm fun r l' h => nomatch h
    | some wake =>
      -- Both the work and its watcher wait here, and what comes first decides.
      obtain ⟨reason, hreason⟩ := Context.signal_of_signalAt hwake
      cases hm : ctx.signalAt l with
      | none =>
        simp only [play, alone, hwake, hm, hreason]
        exact ih reason _
      | some m =>
        by_cases hlt : m < wake
        · simp only [play, hwake, hm, hlt, if_true]
          exact watched_cutAt hm fun r l' h => Nat.lt_of_lt_of_le hlt (wake_le_alone hwake h)
        · simp only [play, alone, hwake, hm, hlt, if_false, hreason]
          exact ih reason _
  | hang =>
    simp only [play]
    split
    · next m hm => exact watched_cutAt hm fun r l' h => nomatch h
    · exact .stuck rfl

variable {ctx : Context}

theorem alone_of_finished {t : Task η ε α} {l : Timeline} {r : Except ε α}
    (h : (t.play ctx l).ending = .finished r) : t.alone l = some (r, (t.play ctx l).line) := by
  have hwatched := t.watched_play ctx l
  rw [h] at hwatched
  cases hwatched with
  | finished halone => exact halone

theorem alone_of_stuck {t : Task η ε α} {l : Timeline} (h : (t.play ctx l).ending = .stuck) :
    t.alone l = none := by
  have hwatched := t.watched_play ctx l
  rw [h] at hwatched
  cases hwatched with
  | stuck halone => exact halone

theorem signal_of_cutOff {t : Task η ε α} {l : Timeline} {reason : Reason}
    (h : (t.play ctx l).ending = .cutOff reason) :
    ctx.signal (t.play ctx l).line = some reason := by
  have hwatched := t.watched_play ctx l
  rw [h] at hwatched
  cases hwatched with
  | cutOff hsignal => exact hsignal

/-- Work is cut off only before it would have ended. -/
theorem lt_of_cutOff {t : Task η ε α} {l finish : Timeline} {reason : Reason} {r : Except ε α}
    (h : (t.play ctx l).ending = .cutOff reason) (halone : t.alone l = some (r, finish)) :
    (t.play ctx l).line.now < finish.now := by
  have hwatched := t.watched_play ctx l
  rw [h] at hwatched
  cases hwatched with
  | cutOff hsignal hlate => exact hlate r finish halone

end Task

end Retry
