import Mathlib.Data.List.Basic
import Retry.Proofs.Laps

namespace Retry

namespace Event

variable {η ε α : Type}

def log? : Event η ε α → Option Log
  | logged log => some log
  | _ => none

/-- Whether an event tells how a run goes: the end of an attempt, a verdict, the log, a sleep. -/
def tells : Event η ε α → Bool
  | ended _ | judged .. | logged _ | slept _ => true
  | invoked .. | noted _ | asked .. | hinted .. => false

theorem of_tells_eq_false {e : Event η ε α} (h : e.tells = false) :
    e.log? = none ∧ e.sleep? = none ∧ e.result? = none := by
  cases e with
  | ended | judged | logged | slept => cases h
  | invoked | noted | asked | hinted => exact ⟨rfl, rfl, rfl⟩

end Event

namespace Entry

variable {η ε α β : Type}

/-- The entries of a journal that tell how the run goes. -/
def account (journal : List (Entry η ε α)) : List (Entry η ε α) :=
  journal.filter (·.event.tells)

theorem account_append (j k : List (Entry η ε α)) : account (j ++ k) = account j ++ account k :=
  List.filter_append j k

theorem account_allAt (l : Timeline) (events : List (Event η ε α)) :
    account (allAt l events) = allAt l (events.filter Event.tells) := List.filter_map

/-- What the other entries have nothing to say of can be picked from the account. -/
theorem pick_account {f : Event η ε α → Option β} (hf : ∀ x, x.tells = false → f x = none)
    (journal : List (Entry η ε α)) : pick f (account journal) = pick f journal := by
  rw [pick, account, List.filterMap_filter]
  refine List.filterMap_congr fun x _ => ?_
  cases h : x.event.tells with
  | true => simp
  | false => simp [hf _ h]

end Entry

namespace Log

/-- How a run has ended whose log is closed by this line. -/
def termination? : Log → Option Termination
  | doneBeforeAttempt .. | doneDuringAttempt .. | doneDuringBackoff .. => some .cancelled
  | earlyReturn _ => some .earlyReturn
  | budgetExhausted _ _ verdict => some (if verdict.retryable then .exhausted else .nonRetryable)
  | retrying .. => none

/-- The budget warns, and nothing else does. -/
theorem level_eq_warn_iff (log : Log) : log.line.level = "WARN" ↔
    ∃ t, log.termination? = some t ∧ (t = .exhausted ∨ t = .nonRetryable) := by
  cases log with
  | budgetExhausted attempts limit verdict =>
    cases h : verdict.retryable <;> simp [line, termination?, h]
  | doneBeforeAttempt | doneDuringAttempt | doneDuringBackoff | earlyReturn | retrying =>
    have hlevel : "DEBUG" ≠ "WARN" := by decide
    exact iff_of_false hlevel (by simp [termination?])

end Log

/-- A failure that a run waits out: its error, the verdict on it, and the delay requested for it;
when the attempt ended, and when the run went on from there. -/
structure Setback (ε : Type) where
  error : ε
  verdict : Verdict
  delay : Nat
  ended : Timeline
  line : Timeline

namespace Setback

variable {η ε α β : Type}

/-- What is told of attempt `number` when it is a setback. -/
def entries (b : Setback ε) (number : Nat) : List (Entry η ε α) :=
  ⟨b.ended, .ended (.error b.error)⟩ :: Entry.allAt b.line [.judged b.error none b.verdict,
    .logged (.retrying number b.verdict b.delay), .slept b.delay]

/-- What is told of setbacks in a row, numbered from one on. -/
def story (setbacks : List (Setback ε)) : List (Entry η ε α) :=
  (setbacks.zipIdx 1).flatMap fun (b, number) => b.entries number

/-- What the log says of setbacks in a row. -/
def retryings (setbacks : List (Setback ε)) : List Log :=
  (setbacks.zipIdx 1).map fun (b, number) => .retrying number b.verdict b.delay

theorem story_concat (setbacks : List (Setback ε)) (b : Setback ε) :
    story (η := η) (α := α) (setbacks ++ [b]) =
      story setbacks ++ b.entries (setbacks.length + 1) := by
  rw [story, List.zipIdx_append, List.zipIdx_singleton, List.flatMap_append,
    List.flatMap_singleton, Nat.add_comm]
  rfl

/-- What every setback says once, a row of them says in its order. -/
theorem pick_story {f : Event η ε α → Option β} (what : Setback ε → β)
    (hf : ∀ b number, Entry.pick f (b.entries number) = [what b]) (setbacks : List (Setback ε)) :
    Entry.pick f (story setbacks) = setbacks.map what := by
  unfold Entry.pick at hf ⊢
  simp only [story, List.filterMap_flatMap, hf, ← List.map_eq_flatMap]
  calc (setbacks.zipIdx 1).map (fun a => what a.1)
      = ((setbacks.zipIdx 1).map Prod.fst).map what := List.map_map.symm
    _ = setbacks.map what := by rw [List.zipIdx_map_fst]

theorem pick_log_story (setbacks : List (Setback ε)) :
    Entry.pick (η := η) (α := α) Event.log? (story setbacks) = retryings setbacks := by
  simp only [Entry.pick, story, List.filterMap_flatMap, retryings, List.map_eq_flatMap]
  rfl

theorem mem_retryings {log : Log} {setbacks : List (Setback ε)} (h : log ∈ retryings setbacks) :
    ∃ number verdict delay, log = .retrying number verdict delay := by
  obtain ⟨⟨b, number⟩, -, rfl⟩ := List.mem_map.mp h
  exact ⟨number, b.verdict, b.delay, rfl⟩

/-- Under a policy a setback is judged by the classifier, and met with the context not done. -/
structure Met (p : Policy ε) (ctx : Context) (b : Setback ε) : Prop where
  live : ctx.err b.line = none
  judged : b.verdict = p.classifier (ctx.view b.line) b.error

/-- The context is not done by the end of the sleep. -/
def SleptOut (p : Policy ε) (ctx : Context) (b : Setback ε) : Prop :=
  ∀ moment, ctx.signalAt b.line = some moment → p.sleeper.wake b.line.now b.delay < moment

end Setback

namespace Policy

variable {η ε α : Type} {p : Policy ε} {ctx : Context} {view : Context.View} {number : Nat} {e : ε}
  {b : Budget} {ws : Words} {events : List (Event η ε α)}

/-- A failure that is to be waited out is a setback. -/
theorem Decided.setback {b' : Budget} {delay : Nat} {words : Words}
    (h : p.Decided view number e b ws events (.retry b' delay words)) :
    events.filter Event.tells = [.judged e view.err (p.classifier view e),
      .logged (.retrying number (p.classifier view e) delay), .slept delay] := by
  cases h with
  | retry hgo hv =>
    rw [hv, passed, hintAsked]
    cases p.earlyReturn <;> cases p.delayHint <;> rfl

/-- What is told at the end of a run, after setbacks, by the way in which it ends. -/
inductive Closing [OfReason ε] (p : Policy ε) (ctx : Context) :
    List (Setback ε) → Status ε α → List (Entry η ε α) → Prop where
  | value {setbacks : List (Setback ε)} {ended : Timeline} {v : α} :
      Closing p ctx setbacks (.returned (.success v (setbacks.length + 1)))
        [⟨ended, .ended (.ok v)⟩]
  | spent {setbacks : List (Setback ε)} {ended line : Timeline} {e : ε} {v : Verdict}
      (hlive : ctx.err line = none) (hv : v = p.classifier (ctx.view line) e) :
      Closing p ctx setbacks
        (.returned (.failure e (setbacks.length + 1)
          (if v.retryable then .exhausted else .nonRetryable)))
        (⟨ended, .ended (.error e)⟩ :: Entry.allAt line [.judged e none v,
          .logged (.budgetExhausted (setbacks.length + 1) p.maxAttempts v)])
  | early {setbacks : List (Setback ε)} {ended line : Timeline} {e : ε}
      (hlive : ctx.err line = none) (hstop : p.stopsEarly (ctx.view line) e = true) :
      Closing p ctx setbacks (.returned (.failure e (setbacks.length + 1) .earlyReturn))
        [⟨ended, .ended (.error e)⟩, ⟨line, .logged (.earlyReturn (setbacks.length + 1))⟩]
  | before {setbacks : List (Setback ε)} {line : Timeline} {reason : Reason}
      (hslept : ∀ b ∈ setbacks, b.SleptOut p ctx) (hdone : ctx.err line = some reason) :
      Closing p ctx setbacks
        (.returned (.failure (OfReason.ofReason reason) setbacks.length .cancelled))
        [⟨line, .logged (.doneBeforeAttempt setbacks.length reason)⟩]
  | during {setbacks : List (Setback ε)} {ended line : Timeline} {e : ε} {reason : Reason}
      (hdone : ctx.err line = some reason) :
      Closing p ctx setbacks
        (.returned (.failure (OfReason.ofReason reason) (setbacks.length + 1) .cancelled))
        [⟨ended, .ended (.error e)⟩,
          ⟨line, .logged (.doneDuringAttempt (setbacks.length + 1) reason)⟩]
  | backoff {setbacks : List (Setback ε)} {b : Setback ε} {line : Timeline} {reason : Reason}
      (hcut : ¬ b.SleptOut p ctx) (hdone : ctx.err line = some reason) :
      Closing p ctx (setbacks ++ [b])
        (.returned (.failure (OfReason.ofReason reason) (setbacks.length + 1) .cancelled))
        [⟨line, .logged (.doneDuringBackoff (setbacks.length + 1) reason)⟩]
  | stuck {setbacks : List (Setback ε)} : Closing p ctx setbacks .stuck []
  | starved {setbacks : List (Setback ε)} : Closing p ctx setbacks .starved []

variable [OfReason ε] {op : Operation η ε α} {ops rest : List (Operation η ε α)} {l : Timeline}
  {s : Loop} {journal tail : List (Entry η ε α)} {status : Status ε α}
  {setbacks : List (Setback ε)}

/-- A failure that the policy stops at is told with what it is stopped by. -/
theorem Decided.closing {t : Termination} {ended line : Timeline}
    (h : p.Decided (ctx.view line) (setbacks.length + 1) e b ws events (.stop t))
    (hlive : ctx.err line = none) :
    p.Closing ctx setbacks (.returned (.failure e (setbacks.length + 1) t) : Status ε α)
      (⟨ended, .ended (.error e)⟩ :: Entry.allAt line (events.filter Event.tells)) := by
  cases h with
  | early hstop => exact .early hlive hstop
  | spent hgo hv =>
    rw [Context.view, hlive, List.filter_append, passed]
    cases p.earlyReturn <;> exact .spent hlive hv.symm

theorem account_tried (p : Policy ε) (ctx : Context) (op : Operation η ε α) (s : Loop) :
    Entry.account (p.tried ctx op s).journal =
      (p.tried ctx op s).result.toList.map fun r => ⟨(p.watched ctx op s.line).line, .ended r⟩ := by
  have hnotes : Entry.account ((p.watched ctx op s.line).notes.map fun note =>
      (⟨note.1, .noted note.2⟩ : Entry η ε α)) = [] := by
    refine List.filter_eq_nil_iff.mpr fun x hx => ?_
    obtain ⟨note, -, rfl⟩ := List.mem_map.mp hx
    exact Bool.false_ne_true
  rw [tried, journal_attempt, ← List.singleton_append, Entry.account_append, Entry.account_append,
    hnotes]
  cases (p.attempt ctx (s.attempts + 1) op s.line).result <;> rfl

/-- A failed attempt and the sleep that is requested after it are a setback. -/
theorem exists_setback {delay : Nat} {words : Words}
    (hr : (p.tried ctx op s).result = some (.error e))
    (hlive : ctx.err (p.tried ctx op s).line = none)
    (hd : p.decision (ctx.view (p.tried ctx op s).line) (s.attempts + 1) e s.budget s.words =
      (events, .retry b delay words)) :
    ∃ setback : Setback ε, setback.Met p ctx ∧ setback.line = (p.tried ctx op s).line ∧
      setback.delay = delay ∧ Entry.account
        ((p.tried ctx op s).journal ++ Entry.allAt (p.tried ctx op s).line events) =
      setback.entries (s.attempts + 1) := by
  let setback : Setback ε :=
    ⟨e, p.classifier (ctx.view (p.tried ctx op s).line) e, delay,
      (p.watched ctx op s.line).line, (p.tried ctx op s).line⟩
  refine ⟨setback, ⟨hlive, rfl⟩, rfl, rfl, ?_⟩
  have hview : (ctx.view (p.tried ctx op s).line).err = none := hlive
  rw [Entry.account_append, account_tried, hr, Entry.account_allAt,
    (decided_of_decision hd).setback, hview]
  rfl

/-- What a run has behind it at a reached state are setbacks, one for each attempt, and all of their
sleeps were slept out. -/
theorem Reaches.account (h : p.Reaches ctx ops l ws rest s journal) :
    ∃ setbacks : List (Setback ε), setbacks.length = s.attempts ∧
      Entry.account journal = Setback.story setbacks ∧
      ∀ b ∈ setbacks, b.Met p ctx ∧ b.SleptOut p ctx := by
  induction h with
  | start => exact ⟨[], rfl, rfl, fun _ hb => nomatch hb⟩
  | again h hlive hround ih =>
    obtain ⟨setbacks, hlength, hstory, hall⟩ := ih
    cases turn_of_round hround with
    | again hr hafter hd hwait =>
      obtain ⟨setback, hmet, hline, hdelay, hmore⟩ := exists_setback hr hafter hd
      have hslept : setback.SleptOut p ctx := by
        rw [Setback.SleptOut, hline, hdelay]
        exact (backOff_eq_none hwait).2
      refine ⟨setbacks ++ [setback], ?_, ?_, ?_⟩
      · rw [List.length_append, hlength, List.length_singleton]
      · rw [Entry.account_append, hstory, hmore, Setback.story_concat, hlength]
      · exact List.forall_mem_append.mpr ⟨hall, List.forall_mem_singleton.mpr ⟨hmet, hslept⟩⟩

/-- A run tells of its setbacks and then of its end. -/
theorem exists_closing (p : Policy ε) (ctx : Context) (ops : List (Operation η ε α))
    (l : Timeline) (ws : Words) : ∃ setbacks tail,
      Entry.account (p.run ctx ops l ws).journal = Setback.story setbacks ++ tail ∧
      (∀ b ∈ setbacks, b.Met p ctx) ∧
      p.Closing ctx setbacks (p.run ctx ops l ws).status tail := by
  obtain ⟨rest, s, journal, report, hreach, hlast, hrun⟩ := p.exists_last ctx ops l ws
  obtain ⟨setbacks, hlength, hstory, hall⟩ := hreach.account
  have hmet : ∀ b ∈ setbacks, b.Met p ctx := fun b hb => (hall b hb).1
  simp only [hrun, Report.after, Entry.account_append, hstory]
  cases hlast with
  | abandoned hdone =>
    rw [abandonBefore, abandon, ← hlength]
    exact ⟨setbacks, _, rfl, hmet, .before (fun b hb => (hall b hb).2) hdone⟩
  | starved hlive => exact ⟨setbacks, _, rfl, hmet, .starved⟩
  | @stopped _ _ _ _ _ line _ hlive hround =>
    cases turn_of_round hround with
    | stuck hr =>
      refine ⟨setbacks, _, rfl, hmet, ?_⟩
      rw [account_tried, hr]
      exact .stuck
    | value hr =>
      refine ⟨setbacks, _, rfl, hmet, ?_⟩
      rw [account_tried, hr, ← hlength]
      exact .value
    | lost hr hdone =>
      refine ⟨setbacks, _, rfl, hmet, ?_⟩
      rw [Entry.account_append, account_tried, hr, Entry.account_allAt, abandon, ← hlength]
      exact .during hdone
    | stopped hr hafter hd =>
      refine ⟨setbacks, _, rfl, hmet, ?_⟩
      rw [← hlength] at hd
      rw [Entry.account_append, account_tried, hr, Entry.account_allAt, ← hlength]
      exact (decided_of_decision hd).closing hafter
    | @interrupted _ _ _ _ _ _ reason hr hafter hd hwait =>
      -- The sleep was requested, so the last attempt is a setback like those before it.
      obtain ⟨setback, hmet', hline, hdelay, hmore⟩ := exists_setback hr hafter hd
      obtain ⟨hsignal, moment, hmoment, hle, -⟩ := backOff_eq_some hwait
      have hdone := Context.err_of_signal hsignal
      have hcut : ¬ setback.SleptOut p ctx := by
        intro hslept
        rw [Setback.SleptOut, hline, hdelay] at hslept
        exact Nat.lt_irrefl _ (Nat.lt_of_lt_of_le (hslept moment hmoment) hle)
      refine ⟨setbacks ++ [setback],
        [⟨line, .logged (.doneDuringBackoff (setbacks.length + 1) reason)⟩], ?_, ?_, ?_⟩
      · rw [← List.append_assoc, Entry.account_append, hmore, Setback.story_concat, hlength,
          List.append_assoc]
        rfl
      · exact List.forall_mem_append.mpr ⟨hmet, List.forall_mem_singleton.mpr hmet'⟩
      · rw [abandon, ← hlength]
        exact .backoff hcut hdone

/-- The line that closes a log names the way in which its run has failed, if it has. -/
theorem Closing.termination_iff {t : Termination} (h : p.Closing ctx setbacks status tail) :
    (∃ line ∈ Entry.pick Event.log? tail, line.termination? = some t) ↔
      ∃ e number, status = .returned (.failure e number t) := by
  cases h with
  | value | spent | early | before | during | backoff | stuck | starved =>
    simp [Entry.pick, Entry.allAt, Event.log?, Log.termination?]

/-- No sleep is requested at the end of a run. -/
theorem Closing.sleeps (h : p.Closing ctx setbacks status tail) :
    Entry.pick Event.sleep? tail = [] := by
  cases h with
  | value | spent | early | before | during | backoff | stuck | starved => rfl

/-- A log is a faithful record of its run. It says that the run retries once for every sleep that
is requested, right before it and in their order: for the first time with attempt one, and each time
with the classifier's verdict on the error of that attempt and with the very delay. A run that fails
adds one line, and one that comes to a value adds none: the warning, with the attempts, the limit
and the last verdict, exactly when the budget ended the run; the early return exactly when that did;
and that the context is done, with the attempts and the reason that is returned, exactly when the
run is abandoned. That it is done during a sleep is said just of the one that was not slept out. -/
theorem log_tells_run (p : Policy ε) (ctx : Context) (ops : List (Operation η ε α)) (l : Timeline)
    (ws : Words) :
    let run := p.run ctx ops l ws
    let log := Entry.pick Event.log? run.journal
    (∃ setbacks tail,
      Entry.account run.journal = Setback.story setbacks ++ tail ∧
      (∀ b ∈ setbacks, b.Met p ctx) ∧
      p.Closing ctx setbacks run.status tail ∧
      log = Setback.retryings setbacks ++ Entry.pick Event.log? tail ∧
      Entry.pick Event.sleep? run.journal = setbacks.map (·.delay) ∧
      Entry.pick Event.result? run.journal =
        setbacks.map (.error ·.error) ++ Entry.pick Event.result? tail) ∧
    (∀ t, (∃ line ∈ log, line.termination? = some t) ↔
      ∃ e number, run.status = .returned (.failure e number t)) ∧
    ((∃ line ∈ log, line.line.level = "WARN") ↔
      ∃ e number t, run.status = .returned (.failure e number t) ∧
        (t = .exhausted ∨ t = .nonRetryable)) := by
  intro run log
  obtain ⟨setbacks, tail, hstory, hmet, hclosing⟩ := p.exists_closing ctx ops l ws
  have hpick {β : Type} {f : Event η ε α → Option β} (hf : ∀ x, x.tells = false → f x = none) :
      Entry.pick f run.journal = Entry.pick f (Setback.story setbacks) ++ Entry.pick f tail := by
    rw [← Entry.pick_account hf, hstory, Entry.pick_append]
  have hlog : log = Setback.retryings setbacks ++ Entry.pick Event.log? tail := by
    rw [← Setback.pick_log_story]
    exact hpick fun x hx => (Event.of_tells_eq_false hx).1
  have hends : ∀ t, (∃ line ∈ log, line.termination? = some t) ↔
      ∃ e number, run.status = .returned (.failure e number t) := by
    intro t
    rw [← hclosing.termination_iff, hlog]
    constructor
    · rintro ⟨line, hline, ht⟩
      rcases List.mem_append.mp hline with hline | hline
      · obtain ⟨number, v, delay, rfl⟩ := Setback.mem_retryings hline
        cases ht
      · exact ⟨line, hline, ht⟩
    · rintro ⟨line, hline, ht⟩
      exact ⟨line, List.mem_append_right _ hline, ht⟩
  refine ⟨⟨setbacks, tail, hstory, hmet, hclosing, hlog, ?_, ?_⟩, hends, ?_⟩
  · rw [hpick fun x hx => (Event.of_tells_eq_false hx).2.1,
      Setback.pick_story (·.delay) fun _ _ => rfl, hclosing.sleeps, List.append_nil]
  · rw [hpick fun x hx => (Event.of_tells_eq_false hx).2.2,
      Setback.pick_story (.error ·.error) fun _ _ => rfl]
  · constructor
    · rintro ⟨line, hline, hlevel⟩
      obtain ⟨t, ht, hbudget⟩ := line.level_eq_warn_iff.mp hlevel
      obtain ⟨e, number, hstatus⟩ := (hends t).mp ⟨line, hline, ht⟩
      exact ⟨e, number, t, hstatus, hbudget⟩
    · rintro ⟨e, number, t, hstatus, hbudget⟩
      obtain ⟨line, hline, ht⟩ := (hends t).mpr ⟨e, number, hstatus⟩
      exact ⟨line, hline, line.level_eq_warn_iff.mpr ⟨t, ht, hbudget⟩⟩

/-- The log of a run that its budget ends, with the warning; of one that is cut short in the sleep
after its first failure; and of one that comes to a value after a setback, with nothing but that. -/
theorem log_tells_of_timeouts :
    let fails : Operation Empty Reason Nat :=
      fun _ => .sleep 1000000 (.finish (.error .deadlineExceeded))
    let timeout : Verdict := ⟨true, "timeout"⟩
    let policy := fun limit => ofReasons limit .allErrors none
    let log := fun report : Report Empty Reason Nat => Entry.pick Event.log? report.journal
    let spent := (policy 2).run ⟨.root 0, none⟩ [fails, fails] {} []
    let cut := (policy 0).run ⟨.root 0, some 150000000⟩ [fails] {} []
    let mended := (policy 0).run ⟨.root 0, none⟩ [fails, fun _ => .finish (.ok 7)] {} []
    (spent.status = .returned (.failure .deadlineExceeded 2 .exhausted) ∧
        log spent = [.retrying 1 timeout 200000000, .budgetExhausted 2 2 timeout] ∧
        ∃ line ∈ log spent, line.line.level = "WARN") ∧
      (cut.status = .returned (.failure .deadlineExceeded 1 .cancelled) ∧
        log cut = [.retrying 1 timeout 200000000, .doneDuringBackoff 1 .deadlineExceeded] ∧
        ∃ line ∈ log cut, line.termination? = some .cancelled) ∧
      (mended.status = .returned (.success 7 2) ∧
        log mended = [.retrying 1 timeout 200000000] ∧
        (∀ t, ¬ ∃ line ∈ log mended, line.termination? = some t) ∧
        ∃ b : Setback Reason, b.delay = 200000000 ∧ b.Met (policy 0) ⟨.root 0, none⟩) := by
  intro fails timeout policy log spent cut mended
  have hspent : spent.status = .returned (.failure .deadlineExceeded 2 .exhausted) := by
    decide +kernel
  have hcut : cut.status = .returned (.failure .deadlineExceeded 1 .cancelled) := by
    decide +kernel
  have hmended : mended.status = .returned (.success 7 2) := by decide +kernel
  obtain ⟨-, -, hwarns⟩ := log_tells_run (policy 2) ⟨.root 0, none⟩ [fails, fails] {} []
  obtain ⟨-, hends, -⟩ := log_tells_run (policy 0) ⟨.root 0, some 150000000⟩ [fails] {} []
  obtain ⟨⟨setbacks, -, -, hmet, -, -, hsleeps, -⟩, hnone, -⟩ :=
    log_tells_run (policy 0) ⟨.root 0, none⟩ [fails, fun _ => .finish (.ok 7)] {} []
  refine ⟨⟨hspent, by decide +kernel, hwarns.mpr ⟨_, _, _, hspent, Or.inl rfl⟩⟩,
    ⟨hcut, by decide +kernel, (hends _).mpr ⟨_, _, hcut⟩⟩,
    ⟨hmended, by decide +kernel, fun t ht => ?_, ?_⟩⟩
  · obtain ⟨e, number, hstatus⟩ := (hnone t).mp ht
    cases hmended.symm.trans hstatus
  · have hslept : Entry.pick Event.sleep? mended.journal = [200000000] := by decide +kernel
    have hdelay : 200000000 ∈ setbacks.map (·.delay) := by
      rw [← hsleeps]
      exact hslept ▸ List.mem_singleton_self _
    obtain ⟨b, hb, hb'⟩ := List.mem_map.mp hdelay
    exact ⟨b, hb', hmet b hb⟩

end Policy

end Retry
