import Retry.Policy.Basic
import Retry.Proofs.Draw
import Retry.Proofs.Time

namespace Retry

namespace Jitter

theorem spread_le {low high : Nat} (hle : low ≤ high) (hhigh : high < 2 ^ 64)
    (ws : Words) : (spread low high ws).1 ≤ Duration.ofMillis high :=
  Nat.mul_le_mul_right _ (Words.draw_le hle hhigh ws)

theorem apply_le (j : Jitter) (delay : Nat) (ws : Words) : (j.apply delay ws).1 ≤ delay := by
  have hms : Duration.ofMillis (min (Duration.millis delay) greatestMillis) ≤ delay :=
    Nat.le_trans (Nat.mul_le_mul_right _ (Nat.min_le_left _ _)) (Nat.div_mul_le_self _ _)
  have hgreatest : min (Duration.millis delay) greatestMillis < 2 ^ 64 :=
    Nat.lt_of_le_of_lt (Nat.min_le_right _ _) (by decide)
  cases j with
  | none => exact Nat.le_refl _
  | full =>
    simp only [apply]
    split
    · exact Nat.zero_le _
    · exact Nat.le_trans (spread_le (Nat.zero_le _) hgreatest ws) hms
  | equal =>
    simp only [apply]
    split
    · exact Nat.zero_le _
    · exact Nat.le_trans (spread_le (Nat.div_le_self _ _) hgreatest ws) hms

end Jitter

theorem Policy.delayFor_le_day {ε : Type} (p : Policy ε) (attempts : Nat) (e : ε) (ws : Words) :
    (p.delayFor attempts e ws).1 ≤ Duration.day := by
  have hbackoff : (p.jitter.apply (p.backoff.delay attempts) ws).1 ≤ Duration.day :=
    Nat.le_trans (p.jitter.apply_le _ ws) (p.backoff.delay_le_day attempts)
  unfold delayFor
  split
  · split
    · exact hbackoff
    · exact Nat.min_le_right _ _
  · exact hbackoff

/-- A timer wakes no sooner than asked for, also where it is set to go off far away instead. -/
theorem Sleeper.le_wake_timer {delay : Nat} (h : delay ≤ farAway) (now : Nat) :
    now + delay ≤ timer.wake now delay := by
  have hset : now + delay ≤ (Duration.later? now delay).getD (now + farAway) := by
    unfold Duration.later?
    split
    · exact Nat.le_refl _
    · exact Nat.add_le_add_left h now
  exact Nat.le_trans hset (Duration.le_tick _)

theorem Duration.day_le_farAway : Duration.day ≤ Sleeper.farAway := by decide

end Retry
