import Mathlib.Data.List.Induction
import Retry.Policy.Run

namespace Retry

namespace Policy

variable {ε : Type}

/-- A thing that can be set. -/
inductive Knob where
  | maxAttempts
  | mode
  | attemptTimeout
  | backoff
  | jitter
  | classifier
  | earlyReturn
  | delayHint
  | sleeper
  deriving DecidableEq, Repr

/-- What a knob can be at. -/
def Knob.Value (ε : Type) : Knob → Type
  | maxAttempts => Nat
  | mode => Mode
  | attemptTimeout => Option Nat
  | backoff => Backoff
  | jitter => Jitter
  | classifier => Context.View → ε → Verdict
  | earlyReturn => Option (Context.View → ε → Bool)
  | delayHint => Option (Nat → ε → Option Nat)
  | sleeper => Sleeper

/-- A timeout as it is set: zero is none. -/
def timeoutOf (timeout : Nat) : Option Nat := if timeout = 0 then none else some timeout

/-- What a setting puts a knob at, if it is about that knob. -/
def Setting.value? : Setting ε → (knob : Knob) → Option (knob.Value ε)
  | .maxAttempts value, .maxAttempts => some value
  | .mode value, .mode => some value
  | .attemptTimeout value, .attemptTimeout => some (timeoutOf value)
  | .backoff value, .backoff => some value
  | .jitter value, .jitter => some value
  | .classify value, .classifier => some value
  | .earlyReturn value, .earlyReturn => some (some value)
  | .delayHint value, .delayHint => some (some value)
  | .sleeper value, .sleeper => some value
  | _, _ => none

def Builder.get (b : Builder ε) : (knob : Knob) → knob.Value ε
  | .maxAttempts => b.maxAttempts
  | .mode => b.mode
  | .attemptTimeout => timeoutOf b.attemptTimeout
  | .backoff => b.backoff
  | .jitter => b.jitter
  | .classifier => b.classifier
  | .earlyReturn => b.earlyReturn
  | .delayHint => b.delayHint
  | .sleeper => b.sleeper

def get (p : Policy ε) : (knob : Knob) → knob.Value ε
  | .maxAttempts => p.maxAttempts
  | .mode => p.mode
  | .attemptTimeout => p.attemptTimeout
  | .backoff => p.backoff
  | .jitter => p.jitter
  | .classifier => p.classifier
  | .earlyReturn => p.earlyReturn
  | .delayHint => p.delayHint
  | .sleeper => p.sleeper

theorem timeoutOf_eq_some_iff {t timeout : Nat} :
    timeoutOf t = some timeout ↔ t = timeout ∧ 0 < timeout := by
  unfold timeoutOf
  split <;> simp only [Option.some.injEq, reduceCtorEq, false_iff] <;> omega

theorem timeoutOf_inj {t t' : Nat} (h : timeoutOf t = timeoutOf t') : t = t' := by
  unfold timeoutOf at h
  split at h <;> split at h <;> simp_all

theorem timeoutOf_getD {timeout : Option Nat} (h : timeout ≠ some 0) :
    timeoutOf (timeout.getD 0) = timeout := by
  cases timeout with
  | none => rfl
  | some timeout => exact if_neg fun hzero => h (congrArg some hzero)

/-- Policies with all knobs alike are one policy. -/
theorem eq_of_get {p p' : Policy ε} (h : ∀ knob, p.get knob = p'.get knob) : p = p' := by
  obtain ⟨_, _, _, _, _, _, _, _, _⟩ := p
  obtain ⟨_, _, _, _, _, _, _, _, _⟩ := p'
  simp only [mk.injEq]
  exact ⟨h .maxAttempts, h .mode, h .attemptTimeout, h .backoff, h .jitter, h .classifier,
    h .earlyReturn, h .delayHint, h .sleeper⟩

theorem get_toBuilder {p : Policy ε} (hzero : p.attemptTimeout ≠ some 0) (knob : Knob) :
    p.toBuilder.get knob = p.get knob := by
  cases knob with
  | attemptTimeout => exact timeoutOf_getD hzero
  | _ => rfl

/-- What was set last of a knob, if anything was. -/
def lastSet (settings : List (Setting ε)) (knob : Knob) : Option (knob.Value ε) :=
  (settings.filterMap (·.value? knob)).getLast?

theorem lastSet_concat (settings : List (Setting ε)) (setting : Setting ε) (knob : Knob) :
    lastSet (settings ++ [setting]) knob = (setting.value? knob).or (lastSet settings knob) := by
  rw [lastSet, List.filterMap_append]
  cases hvalue : setting.value? knob with
  | none => simp [lastSet, hvalue]
  | some value => simp [hvalue]

/-- The same settings of each knob in the same order: only settings of different knobs may have
changed places. -/
def Reordered (settings settings' : List (Setting ε)) : Prop :=
  ∀ knob, settings.filterMap (·.value? knob) = settings'.filterMap (·.value? knob)

namespace Builder

variable {b : Builder ε} {p : Policy ε}

theorem eq_of_get {b b' : Builder ε} (h : ∀ knob, b.get knob = b'.get knob) : b = b' := by
  obtain ⟨_, _, _, _, _, _, _, _, _⟩ := b
  obtain ⟨_, _, _, _, _, _, _, _, _⟩ := b'
  simp only [mk.injEq]
  exact ⟨h .maxAttempts, h .mode, timeoutOf_inj (h .attemptTimeout), h .backoff, h .jitter,
    h .classifier, h .earlyReturn, h .delayHint, h .sleeper⟩

/-- A setting is of one knob and leaves the others. -/
theorem get_set (b : Builder ε) (setting : Setting ε) (knob : Knob) :
    (b.set setting).get knob = (setting.value? knob).getD (b.get knob) := by
  cases setting <;> cases knob <;> rfl

theorem get_setAll (b : Builder ε) (settings : List (Setting ε)) (knob : Knob) :
    (b.setAll settings).get knob = (lastSet settings knob).getD (b.get knob) := by
  induction settings using List.reverseRecOn with
  | nil => rfl
  | append_singleton settings setting ih =>
    have hset : b.setAll (settings ++ [setting]) = (b.setAll settings).set setting := by
      simp [setAll]
    rw [hset, get_set, ih, lastSet_concat, Option.getD_or]

theorem setAll_of_reordered (b : Builder ε) {settings settings' : List (Setting ε)}
    (h : Reordered settings settings') : b.setAll settings' = b.setAll settings := by
  refine eq_of_get fun knob => ?_
  rw [get_setAll, get_setAll, lastSet, lastSet, h knob]

theorem build_eq_error_iff {e : BuildError} : b.build = .error e ↔
    Duration.day < b.attemptTimeout ∧ e = .attemptTimeoutTooLarge b.attemptTimeout Duration.day := by
  unfold build
  split
  · next hlong => simp [hlong, eq_comm]
  · next hle => simp [hle]

/-- A builder builds the policy that has its knobs, unless an attempt may take more than a day. -/
theorem build_eq_ok_iff : b.build = .ok p ↔
    b.attemptTimeout ≤ Duration.day ∧ ∀ knob, p.get knob = b.get knob := by
  unfold build
  split
  · next hlong => simp [Nat.not_le.mpr hlong]
  · next hle =>
    simp only [Except.ok.injEq, Nat.le_of_not_lt hle, true_and]
    constructor
    · rintro rfl knob
      cases knob <;> rfl
    · intro h
      refine Policy.eq_of_get fun knob => ?_
      rw [h]
      cases knob <;> rfl

theorem timeoutOf_of_build (hp : b.build = .ok p) {timeout : Nat}
    (ht : p.attemptTimeout = some timeout) : b.attemptTimeout = timeout ∧ 0 < timeout := by
  have hget := (build_eq_ok_iff.mp hp).2 .attemptTimeout
  exact timeoutOf_eq_some_iff.mp (hget.symm.trans ht)

theorem timeout_of_build (hp : b.build = .ok p) {timeout : Nat}
    (ht : p.attemptTimeout = some timeout) : timeout ≤ Duration.day := by
  obtain ⟨rfl, -⟩ := timeoutOf_of_build hp ht
  exact (build_eq_ok_iff.mp hp).1

/-- Put over settings with which a policy can be built, further ones can make that impossible only
by their last timeout. -/
theorem build_setAll_eq_error_iff (hb : b.attemptTimeout ≤ Duration.day)
    (settings : List (Setting ε)) {e : BuildError} : (b.setAll settings).build = .error e ↔
      ∃ timeout, lastSet settings .attemptTimeout = some (some timeout) ∧
        Duration.day < timeout ∧ e = .attemptTimeoutTooLarge timeout Duration.day := by
  have hget : timeoutOf (b.setAll settings).attemptTimeout =
    (lastSet settings .attemptTimeout).getD (timeoutOf b.attemptTimeout) :=
      b.get_setAll settings .attemptTimeout
  rw [build_eq_error_iff]
  constructor
  · rintro ⟨hlong, rfl⟩
    refine ⟨_, ?_, hlong, rfl⟩
    cases hlast : lastSet settings .attemptTimeout with
    | none =>
      rw [hlast] at hget
      rw [timeoutOf_inj hget] at hlong
      omega
    | some last =>
      rw [hlast] at hget
      have hpos : 0 < (b.setAll settings).attemptTimeout := by omega
      rw [← timeoutOf_eq_some_iff.mpr ⟨rfl, hpos⟩]
      exact congrArg some hget.symm
  · rintro ⟨timeout, hlast, hlong, rfl⟩
    rw [hlast] at hget
    obtain ⟨htimeout, -⟩ := timeoutOf_eq_some_iff.mp hget
    rw [htimeout]
    exact ⟨hlong, rfl⟩

end Builder

/-- A policy whose timeout is one that settings can give is what its own settings build. -/
theorem build_toBuilder {p : Policy ε} (hzero : p.attemptTimeout ≠ some 0)
    (hday : ∀ timeout ∈ p.attemptTimeout, timeout ≤ Duration.day) :
    p.toBuilder.build = .ok p := by
  refine Builder.build_eq_ok_iff.mpr ⟨?_, fun knob => (get_toBuilder hzero knob).symm⟩
  cases ht : p.attemptTimeout with
  | none => simp [toBuilder, ht]
  | some timeout => simpa [toBuilder, ht] using hday timeout ht

/-- Of each knob, a policy built from settings has what was set last, or what every builder begins
with; settings of different knobs may be in any order among each other; and no policy is built only
if the last timeout is over a day. So the timeout of a policy is none or positive and no more than a
day. Taken back to its settings, a policy is built again with the same knobs, and all its runs are
the same; or with changes put over them, which change the knobs they are of and no other, and can
keep it from being built by their last timeout alone. A policy is a value, so the one that was taken
back stays as it was. -/
theorem built_as_set {η α : Type} [OfReason ε] (settings : List (Setting ε)) :
    let b : Builder ε := Builder.setAll {} settings
    (∀ e, b.build = .error e ↔
      ∃ timeout, lastSet settings .attemptTimeout = some (some timeout) ∧
        Duration.day < timeout ∧ e = .attemptTimeoutTooLarge timeout Duration.day) ∧
    (∀ settings', Reordered settings settings' →
      (Builder.setAll {} settings').build = b.build) ∧
    ∀ p, b.build = .ok p →
      (p.attemptTimeout = none ∨
        ∃ timeout, p.attemptTimeout = some timeout ∧ 0 < timeout ∧ timeout ≤ Duration.day) ∧
      (∀ knob, p.get knob = (lastSet settings knob).getD (Builder.get {} knob)) ∧
      (∃ copy, p.toBuilder.build = .ok copy ∧ (∀ knob, copy.get knob = p.get knob) ∧
        ∀ (ctx : Context) (ops : List (Operation η ε α)) (l : Timeline) (ws : Words),
          copy.run ctx ops l ws = p.run ctx ops l ws) ∧
      ∀ changes,
        (∀ e, (p.toBuilder.setAll changes).build = .error e ↔
          ∃ timeout, lastSet changes .attemptTimeout = some (some timeout) ∧
            Duration.day < timeout ∧ e = .attemptTimeoutTooLarge timeout Duration.day) ∧
        ∀ changed, (p.toBuilder.setAll changes).build = .ok changed →
          ∀ knob, changed.get knob = (lastSet changes knob).getD (p.get knob) := by
  intro b
  refine ⟨fun e => Builder.build_setAll_eq_error_iff (Nat.zero_le _) settings, ?_, ?_⟩
  · intro settings' hreordered
    rw [Builder.setAll_of_reordered {} hreordered]
  · intro p hp
    have hbounds : ∀ timeout, p.attemptTimeout = some timeout →
        0 < timeout ∧ timeout ≤ Duration.day := fun timeout ht =>
      ⟨(Builder.timeoutOf_of_build hp ht).2, Builder.timeout_of_build hp ht⟩
    have hzero : p.attemptTimeout ≠ some 0 := fun ht => Nat.lt_irrefl 0 (hbounds 0 ht).1
    have hcopy : p.toBuilder.build = .ok p :=
      build_toBuilder hzero fun timeout ht => (hbounds timeout ht).2
    obtain ⟨hday, -⟩ := Builder.build_eq_ok_iff.mp hcopy
    refine ⟨?_, fun knob => ?_, ⟨p, hcopy, fun _ => rfl, fun _ _ _ _ => rfl⟩, fun changes => ⟨?_, ?_⟩⟩
    · cases ht : p.attemptTimeout with
      | none => exact Or.inl rfl
      | some timeout => exact Or.inr ⟨timeout, rfl, hbounds timeout ht⟩
    · rw [(Builder.build_eq_ok_iff.mp hp).2 knob, Builder.get_setAll]
    · exact fun e => Builder.build_setAll_eq_error_iff hday changes
    · intro changed hchanged knob
      rw [(Builder.build_eq_ok_iff.mp hchanged).2 knob, Builder.get_setAll, get_toBuilder hzero]

/-- Two days are set and then ten milliseconds, with other things between them: the latter count, as
they do when all the rest has changed places. With no timeout put over it the policy has none, and is
as it was otherwise; with more than a day put over it, it is not built. -/
theorem built_as_set_of_six :
    let settings : List (Setting Reason) := [.attemptTimeout (2 * Duration.day), .mode .allErrors,
      .maxAttempts 9, .attemptTimeout (Duration.ofMillis 10), .maxAttempts 3, .jitter .full]
    let shuffled : List (Setting Reason) := [.maxAttempts 9, .attemptTimeout (2 * Duration.day),
      .attemptTimeout (Duration.ofMillis 10), .jitter .full, .maxAttempts 3, .mode .allErrors]
    ∃ p untimed : Policy Reason, (Builder.setAll {} settings).build = .ok p ∧
      Reordered settings shuffled ∧ (Builder.setAll {} shuffled).build = .ok p ∧
      p.maxAttempts = 3 ∧ p.mode = .allErrors ∧ p.jitter = .full ∧ p.backoff = .standard ∧
      p.attemptTimeout = some (Duration.ofMillis 10) ∧
      (p.toBuilder.set (.attemptTimeout 0)).build = .ok untimed ∧ untimed.attemptTimeout = none ∧
      untimed.maxAttempts = 3 ∧ untimed.jitter = .full ∧
      (p.toBuilder.set (.attemptTimeout (Duration.day + 1))).build =
        .error (.attemptTimeoutTooLarge (Duration.day + 1) Duration.day) := by
  intro settings shuffled
  obtain ⟨-, hreordered, hbuilt⟩ := built_as_set (η := Empty) (α := Nat) settings
  have hshuffled : Reordered settings shuffled := fun knob => by cases knob <;> rfl
  obtain ⟨-, hset, -, hchanges⟩ := hbuilt _ rfl
  refine ⟨_, _, rfl, hshuffled, hreordered shuffled hshuffled, hset .maxAttempts, hset .mode,
    hset .jitter, hset .backoff, hset .attemptTimeout, rfl, ?_⟩
  have huntimed := (hchanges [.attemptTimeout 0]).2 _ rfl
  refine ⟨huntimed .attemptTimeout, huntimed .maxAttempts, huntimed .jitter, ?_⟩
  exact ((hchanges [.attemptTimeout (Duration.day + 1)]).1 _).mpr ⟨_, rfl, by decide, rfl⟩

end Policy

end Retry
