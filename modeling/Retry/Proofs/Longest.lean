import Retry.Proofs.Delay
import Retry.Proofs.Laps

namespace Retry

namespace Policy

variable {η ε α : Type} {p : Policy ε} {attempts : Nat} {e : ε} {ws : Words} {delay : Nat}

/-- No delay is asked for, or none that is positive. -/
def Unasked (p : Policy ε) (attempts : Nat) (e : ε) : Prop :=
  ∀ hint, p.hint? attempts e = some hint → hint = 0

/-- The delay that a policy comes to, and how many random words it takes for that. -/
inductive Lasts (p : Policy ε) (attempts : Nat) (e : ε) (ws : Words) : Nat × Nat → Prop where
  | asked {hint : Nat} (hhint : p.hint? attempts e = some hint) (hpos : 0 < hint) :
      Lasts p attempts e ws (min hint Duration.day, 0)
  | own (hnone : p.Unasked attempts e) :
      Lasts p attempts e ws (p.jitter.apply (p.backoff.delay attempts) ws)

theorem lasts_delayFor (p : Policy ε) (attempts : Nat) (e : ε) (ws : Words) :
    p.Lasts attempts e ws (p.delayFor attempts e ws) := by
  unfold delayFor
  split
  · next hint hhint =>
    split
    · next hzero =>
      refine .own fun hint' hhint' => ?_
      obtain rfl := Option.some.inj (hhint.symm.trans hhint')
      exact hzero
    · next hne => exact .asked hhint (Nat.pos_of_ne_zero hne)
  · next hnone => exact .own fun hint hhint => nomatch hnone.symm.trans hhint

theorem delayFor_of_asked {hint : Nat} (hhint : p.hint? attempts e = some hint) (hpos : 0 < hint)
    (ws : Words) : p.delayFor attempts e ws = (min hint Duration.day, 0) := by
  have hlasts := p.lasts_delayFor attempts e ws
  generalize p.delayFor attempts e ws = d at hlasts ⊢
  cases hlasts with
  | asked hhint' =>
    obtain rfl := Option.some.inj (hhint.symm.trans hhint')
    rfl
  | own hnone => exact absurd (hnone hint hhint) (Nat.ne_of_gt hpos)

theorem delayFor_of_unasked (hnone : p.Unasked attempts e) (ws : Words) :
    p.delayFor attempts e ws = p.jitter.apply (p.backoff.delay attempts) ws := by
  have hlasts := p.lasts_delayFor attempts e ws
  generalize p.delayFor attempts e ws = d at hlasts ⊢
  cases hlasts with
  | asked hhint hpos => exact absurd (hnone _ hhint) (Nat.ne_of_gt hpos)
  | own => rfl

/-- Every delay of a run is that after the attempt of its number, with the words that are left. -/
theorem getElem?_delays (p : Policy ε) (number : Nat) (ws : Words) (errors : List ε) (i : Nat) :
    (p.delays number ws errors)[i]? = errors[i]?.map fun e =>
      (p.delayFor (number + i) e (p.wordsAfter number ws (errors.take i))).1 := by
  induction errors generalizing number ws i with
  | nil => rfl
  | cons first errors ih =>
    cases i with
    | zero => rfl
    | succ i =>
      simp only [delays, wordsAfter, List.getElem?_cons_succ, List.take_succ_cons, ih]
      rw [Nat.add_assoc, Nat.add_comm 1]

/-- The last attempt of a run is followed by no sleep. -/
theorem Closes.not_sleeps {ctx : Context} {journal : List (Entry η ε α)} {n : Nat}
    {status : Status ε α} {tail : List Beat} (h : Closes ctx journal n status tail) :
    Beat.sleeps ∉ tail := by
  cases h with
  | stopped | lost | between | stuck | starved => simp

theorem le_day_of_mem_delays {number : Nat} {errors : List ε}
    (h : delay ∈ p.delays number ws errors) : delay ≤ Duration.day := by
  induction errors generalizing number ws with
  | nil => cases h
  | cons e errors ih =>
    rcases List.mem_cons.mp h with rfl | hlater
    · exact p.delayFor_le_day number e ws
    · exact ih hlater

/-- No wait is longer than a day, after whatever attempt, error and random words. A positive hint is
taken up to a day, and then backoff, jitter and words have no part in it; without one the delay is no
longer than the backoff without jitter. A run requests no sleep that is longer than a day. -/
theorem no_wait_above_day (p : Policy ε) :
    (∀ attempts e ws, (p.delayFor attempts e ws).1 ≤ Duration.day) ∧
    (∀ attempts e hint, p.hint? attempts e = some hint → 0 < hint → ∀ backoff jitter ws,
      ({ p with backoff, jitter } : Policy ε).delayFor attempts e ws =
        (min hint Duration.day, 0)) ∧
    (∀ attempts e, p.Unasked attempts e → ∀ ws,
      p.delayFor attempts e ws = p.jitter.apply (p.backoff.delay attempts) ws ∧
        (p.delayFor attempts e ws).1 ≤ p.backoff.delay attempts) ∧
    ∀ [OfReason ε] (ctx : Context) (ops : List (Operation η ε α)) (l : Timeline) (ws : Words),
      ∀ delay ∈ Entry.pick Event.sleep? (p.run ctx ops l ws).journal, delay ≤ Duration.day := by
  refine ⟨fun attempts e ws => p.delayFor_le_day attempts e ws, ?_, ?_, ?_⟩
  · intro attempts e hint hhint hpos backoff jitter ws
    exact delayFor_of_asked (p := { p with backoff, jitter }) hhint hpos ws
  · intro attempts e hnone ws
    have heq := delayFor_of_unasked hnone ws
    exact ⟨heq, heq ▸ p.jitter.apply_le _ ws⟩
  · intro _ ctx ops l ws delay hdelay
    obtain ⟨errors, last, tail, hslept, -⟩ := p.exists_closes ctx ops l ws
    rw [hslept.sleeps] at hdelay
    exact le_day_of_mem_delays hdelay

/-- A backoff of three days, and a hint of two days, of none, and of a quarter of a second, with any
words: a run of four attempts sleeps for a day twice and then as long as it is told to. -/
theorem no_wait_above_day_thrice :
    let p : Policy Reason :=
      { ofReasons 4 .allErrors none with
        backoff := .exponential (3 * Duration.day) (some (9 * Duration.day))
        delayHint := some fun n _ => [2 * Duration.day, 0, Duration.ofMillis 250][n - 1]? }
    let fails : Operation Empty Reason Nat := fun _ => .finish (.error .cancelled)
    let run := p.run ⟨.root 0, none⟩ [fails, fails, fails, fails] {} []
    (∀ jitter ws, ({ p with jitter } : Policy Reason).delayFor 1 .cancelled ws =
      (Duration.day, 0)) ∧
      (∀ ws, p.delayFor 2 .cancelled ws = (Duration.day, 0)) ∧
      Entry.pick Event.sleep? run.journal =
        [Duration.day, Duration.day, Duration.ofMillis 250] ∧
      ∀ delay ∈ Entry.pick Event.sleep? run.journal, delay ≤ Duration.day := by
  intro p fails run
  obtain ⟨-, hasked, hunasked, hrun⟩ := no_wait_above_day (η := Empty) (α := Nat) p
  have hzero : p.Unasked 2 .cancelled := fun hint hhint => (Option.some.inj hhint).symm
  have hbackoff : p.backoff.delay 2 = Duration.day := by decide +kernel
  refine ⟨fun jitter ws => hasked 1 .cancelled (2 * Duration.day) rfl (by decide) _ jitter ws,
    fun ws => ?_, by decide +kernel, hrun _ _ _ _⟩
  rw [(hunasked 2 .cancelled hzero ws).1, hbackoff]
  exact Jitter.apply_none _ ws

end Policy

end Retry
