import Mathlib.Data.UInt
import Retry.Proofs.Http.Rejected
import Retry.Proofs.Http.RetryAfter
import Retry.Proofs.Likewise
import Retry.Proofs.Longest

namespace Retry

namespace Http

/-- The fields but those that ask for a delay. -/
def Headers.unasked (h : Headers) : Headers :=
  ⟨h.fields.filter fun field => field.1 ≠ "retry-after"⟩

def Response.unasked (r : Response) : Response := { r with headers := r.headers.unasked }

theorem Headers.text?_unasked (h : Headers) {name : String} (hname : name ≠ "retry-after") :
    h.unasked.text? name = h.text? name := by
  have hvalues : h.unasked.values name = h.values name := by
    unfold values unasked
    rw [List.filter_filter]
    congr 1
    refine List.filter_congr fun field _ => ?_
    by_cases hfield : field.1 = name
    · simp only [hfield, hname, ne_eq, not_false_eq_true, decide_true, Bool.and_self]
    · simp only [hfield, decide_false, Bool.false_and]
  simp only [text?, first?, hvalues]

end Http

/-- The fault without what it asks for. -/
def HttpFault.unasked : HttpFault → HttpFault
  | .status rejection => .status { rejection with headers := rejection.headers.unasked }
  | f => f

/-- A status error keeps its status and its verdict, and all other faults ask for nothing. -/
theorem HttpFault.eq_of_unasked {f f' : HttpFault} (h : f'.unasked = f.unasked) :
    f'.verdict = f.verdict ∧ f'.isTerminal = f.isTerminal := by
  have hown : ∀ f : HttpFault,
      f.unasked.verdict = f.verdict ∧ f.unasked.isTerminal = f.isTerminal := by
    intro f
    cases f with
    | status | transport | decode | request | context => exact ⟨rfl, rfl⟩
  exact ⟨(hown f').1.symm.trans ((congrArg verdict h).trans (hown f).1),
    (hown f').2.symm.trans ((congrArg isTerminal h).trans (hown f).2)⟩

theorem HttpFault.Asks.pos {f : HttpFault} {now : WallTime} {delay : Nat} (h : f.Asks now delay) :
    0 < delay := by
  obtain ⟨rejection, -, hasks⟩ := h
  cases hasks with
  | seconds _ _ hpos => exact Nat.mul_pos hpos (by decide)
  | date _ _ hlater => omega

namespace Http

variable {α : Type}

/-- A decoder that does not look at what a response asks for. -/
def Blind (decode : Decoder α) : Prop :=
  ∀ headers body, decode headers.unasked body = decode headers body

/-- The decoders that go by the media type look at two other fields. -/
theorem Readers.blind_decoder (readers : Readers α) (limit : Nat) :
    Blind (readers.decoder limit) := by
  intro headers body
  have hmedia : mediaType? headers.unasked = mediaType? headers := by
    rw [mediaType?, Headers.text?_unasked headers (by decide), mediaType?]
  have hcoding : coding? headers.unasked = coding? headers := by
    rw [coding?, Headers.text?_unasked headers (by decide), coding?]
  simp only [Readers.decoder, decompress, hmedia, hcoding]

/-- Two responses that differ at most in what they ask for, and of which a decoder makes the same if
they are accepted. -/
structure Response.Like (expected : List Status) (decode : Decoder α)
    (response response' : Response) : Prop where
  unasked : response'.unasked = response.unasked
  decoded : accepts expected response.status = true →
    ∀ body, decode response'.headers body = decode response.headers body

namespace Response.Like

variable {expected : List Status} {decode : Decoder α} {response response' : Response}

theorem status (h : response.Like expected decode response') :
    response'.status = response.status := by
  have heq : response'.unasked.status = response.unasked.status := by rw [h.unasked]
  exact heq

theorem body (h : response.Like expected decode response') : response'.body = response.body := by
  have heq : response'.unasked.body = response.unasked.body := by rw [h.unasked]
  exact heq

theorem headers (h : response.Like expected decode response') :
    response'.headers.unasked = response.headers.unasked := by
  have heq : response'.unasked.headers = response.unasked.headers := by rw [h.unasked]
  exact heq

end Response.Like

theorem Response.like_of_blind {decode : Decoder α} (hblind : Blind decode)
    {response response' : Response} (h : response'.unasked = response.unasked)
    (expected : List Status) : response.Like expected decode response' where
  unasked := h
  decoded := by
    intro _ body
    have hheaders : response'.unasked.headers = response.unasked.headers := by rw [h]
    rw [← hblind response'.headers, ← hblind response.headers]
    exact congrArg (decode · body) hheaders

/-- What sending a request comes to, where that differs at most in what a response asks for. -/
inductive SentAlike (expected : List Status) (decode : Decoder α) :
    Option (Except Fault Response) → Option (Except Fault Response) → Prop where
  | never : SentAlike expected decode none none
  | failed (fault : Fault) : SentAlike expected decode (some (.error fault)) (some (.error fault))
  | answered {response response' : Response} (hlike : response.Like expected decode response') :
      SentAlike expected decode (some (.ok response)) (some (.ok response'))

/-- Two exchanges that differ at most in what their responses ask for, whenever each takes place. -/
structure Exchange.Like (ctx : Context) (expected : List Status) (decode : Decoder α)
    (x x' : Exchange) : Prop where
  build : (x'.build ctx).mapError HttpFault.unasked = (x.build ctx).mapError HttpFault.unasked
  send : ∀ request, x.build ctx = .ok request → ∀ l l', SentAlike expected decode
    (((x.send request).alone l).map (·.1)) (((x'.send request).alone l').map (·.1))

theorem Exchange.like_serving {expected : List Status} {decode : Decoder α} {status : Status}
    {headers headers' : Headers} {body : List Part}
    (h : Response.Like expected decode ⟨status, headers, body⟩ ⟨status, headers', body⟩)
    (ctx : Context) :
    (serving status headers body).Like ctx expected decode (serving status headers' body) where
  build := rfl
  send _ _ _ _ := .answered h

namespace Retrier

variable {r : Retrier} {ctx : Context} {expected : List Status} {decode : Decoder α}
  {exchanges exchanges' : List Exchange} {x x' : Exchange} {response response' : Response}

/-- What is read of two such responses leads to results that differ at most in what they ask for. -/
theorem conclusion_alike (h : response.Like expected decode response')
    (read : Except Fault Intake) :
    (r.conclusion expected decode response' read).2.mapError HttpFault.unasked =
      (r.conclusion expected decode response read).2.mapError HttpFault.unasked := by
  unfold conclusion
  rw [h.status]
  cases haccepts : accepts expected response.status with
  | true =>
    match read with
    | .error fault | .ok ⟨_, true⟩ => rfl
    | .ok ⟨body, false⟩ => simp only [if_true, acceptance, h.decoded haccepts]
  | false =>
    simp only [Bool.false_eq_true, if_false, rejection, h.status, Except.mapError,
      HttpFault.unasked, h.headers]

/-- By itself the rest of an attempt comes to what follows from what is read of the body. -/
theorem alone_respond (r : Retrier) (expected : List Status) (decode : Decoder α)
    (response : Response) (l : Timeline) :
    ((if accepts expected response.status then r.accept decode response
      else r.reject response).alone l).map (·.1) =
      (((Intake.read r.maxBytes response.body).alone l).map (·.1)).map fun read =>
        (r.conclusion expected decode response read).2 := by
  rw [respond_eq, Task.alone_andThen]
  simp only [Task.alone_noteAll, Task.alone]
  cases (Intake.read r.maxBytes response.body).alone l <;> rfl

theorem respond_alike (h : response.Like expected decode response') (l l' : Timeline) :
    ((if accepts expected response'.status then r.accept decode response'
      else r.reject response').alone l').map (fun q => q.1.mapError HttpFault.unasked) =
    ((if accepts expected response.status then r.accept decode response
      else r.reject response).alone l).map (fun q => q.1.mapError HttpFault.unasked) := by
  have hread : ((Intake.read r.maxBytes response.body).alone l').map (·.1) =
      ((Intake.read r.maxBytes response.body).alone l).map (·.1) :=
    (Intake.reads_read r.maxBytes response.body l').eq (Intake.reads_read r.maxBytes response.body l)
  have hsplit : ∀ t : Option (Except HttpFault α × Timeline),
      t.map (fun q => q.1.mapError HttpFault.unasked) =
        (t.map (·.1)).map (Except.mapError HttpFault.unasked) := by
    intro t
    rw [Option.map_map]
    rfl
  rw [hsplit, hsplit, alone_respond, alone_respond, h.body, hread]
  simp only [Option.map_map]
  exact Option.map_congr fun q _ => conclusion_alike h q.1

/-- Attempts at two such exchanges come to results that differ at most in what they ask for. -/
theorem likewise_attempt (r : Retrier) (h : x.Like ctx expected decode x') (number : Nat) :
    Policy.Likewise ctx HttpFault.unasked (r.attempt expected decode number x)
      (r.attempt expected decode number x') := by
  intro l l'
  have hbuild := h.build
  -- Either both builders fail, or both build one request; only then is anything sent.
  cases hx : x.build ctx with
  | error f =>
    rw [hx] at hbuild
    rcases Rule.eq_or_errors_of_mapError hbuild with hx' | ⟨f, f', hf, hx', hunasked⟩
    · simp only [attempt, hx, hx', Task.alone, Task.fail, Option.map_some]
    · simp only [attempt, hx, hf, hx', Task.alone, Task.fail, Option.map_some, Except.mapError,
        hunasked]
  | ok request =>
    have hx' : x'.build ctx = .ok request := by
      rw [hx] at hbuild
      rcases Rule.eq_or_errors_of_mapError hbuild with hx' | ⟨f, f', hf, -⟩
      · exact hx'
      · cases hf
    have hsend := h.send request hx l l'
    simp only [attempt, hx, hx', Task.alone, send_bind_eq, Task.alone_andThen, Task.alone_quiet]
    cases hown : (x.send request).alone l with
    | none =>
      cases hown' : (x'.send request).alone l' with
      | none => rfl
      | some sent' =>
        rw [hown, hown'] at hsend
        cases hsend
    | some sent =>
      obtain ⟨result, line⟩ := sent
      cases hown' : (x'.send request).alone l' with
      | none =>
        rw [hown, hown'] at hsend
        cases hsend
      | some sent' =>
        obtain ⟨result', line'⟩ := sent'
        simp only [hown, hown', Option.map_some] at hsend
        cases hsend with
        | failed fault => rfl
        | answered hlike => exact respond_alike hlike line line'

theorem likewise_attempts (r : Retrier)
    (h : List.Forall₂ (Exchange.Like ctx expected decode) exchanges exchanges') (first : Nat) :
    List.Forall₂ (Policy.Likewise ctx HttpFault.unasked)
      ((exchanges.zipIdx first).map fun (x, number) => r.attempt expected decode number x)
      ((exchanges'.zipIdx first).map fun (x, number) => r.attempt expected decode number x) := by
  induction h generalizing first with
  | nil => exact .nil
  | cons hx _ ih => exact .cons (r.likewise_attempt hx first) (ih (first + 1))

variable {clock : Nat → WallTime}

section Hint

variable {n delay : Nat} {f : HttpFault}
  (hhint : r.policy.delayHint = some fun n f => f.retryAfter? (clock n))

include hhint

theorem hint?_eq (n : Nat) (f : HttpFault) : r.policy.hint? n f = f.retryAfter? (clock n) := by
  rw [Policy.hint?, hhint]
  rfl

theorem delayFor_of_asks (h : f.Asks (clock n) delay) (ws : Words) :
    r.policy.delayFor n f ws = (min delay Duration.day, 0) := by
  refine Policy.delayFor_of_asked ?_ h.pos ws
  rw [hint?_eq hhint, HttpFault.retryAfter?_eq_some_iff]
  exact h

theorem delayFor_of_not_asks (h : ∀ delay, ¬ f.Asks (clock n) delay) (ws : Words) :
    r.policy.delayFor n f ws = r.policy.jitter.apply (r.policy.backoff.delay n) ws := by
  refine Policy.delayFor_of_unasked ?_ ws
  intro hint hasked
  rw [hint?_eq hhint, HttpFault.retryAfter?_eq_some_iff] at hasked
  exact absurd hasked (h hint)

end Hint

/-- Attempts failed one after the other with `errors`, and each was followed by a sleep: as long as
the failure asks for when its attempt is over, up to a day, whatever the backoff, the jitter and the
words are; or if it asks for nothing, as long as the backoff says, with jitter. -/
structure Heeds (r : Retrier) (clock : Nat → WallTime) (ws : Words) (errors : List HttpFault)
    (journal : List (Entry Note HttpFault α)) : Prop where
  results : ∃ last, Entry.pick Event.result? journal = errors.map .error ++ last
  beats : ∃ tail, Entry.pick Event.beat? journal = Beat.laps errors.length ++ tail ∧
    Beat.sleeps ∉ tail
  count : (Entry.pick Event.sleep? journal).length = errors.length
  asked : ∀ (i : Nat) (f : HttpFault) delay, errors[i]? = some f → f.Asks (clock (i + 1)) delay →
    (Entry.pick Event.sleep? journal)[i]? = some (min delay Duration.day)
  own : ∀ (i : Nat) (f : HttpFault), errors[i]? = some f →
    (∀ delay, ¬ f.Asks (clock (i + 1)) delay) → (Entry.pick Event.sleep? journal)[i]? =
      some (r.policy.jitter.apply (r.policy.backoff.delay (i + 1))
        (r.policy.wordsAfter 1 ws (errors.take i))).1

theorem exists_heeds (hhint : r.policy.delayHint = some fun n f => f.retryAfter? (clock n))
    (ctx : Context) (expected : List Status) (decode : Decoder α) (exchanges : List Exchange)
    (l : Timeline) (ws : Words) : ∃ errors, r.Heeds clock ws errors
      (r.run ctx expected decode exchanges l ws).journal := by
  obtain ⟨errors, last, tail, hslept, hcloses⟩ := r.policy.exists_closes ctx
    ((exchanges.zipIdx 1).map fun (x, number) => r.attempt expected decode number x) l ws
  have hsleep : ∀ i f, errors[i]? = some f →
      (Entry.pick Event.sleep? (r.run ctx expected decode exchanges l ws).journal)[i]? =
        some (r.policy.delayFor (i + 1) f (r.policy.wordsAfter 1 ws (errors.take i))).1 := by
    intro i f hf
    rw [run, hslept.sleeps, Policy.getElem?_delays, hf, Nat.add_comm 1]
    rfl
  refine ⟨errors, ⟨last, hslept.results⟩, ⟨tail, hslept.beats, hcloses.not_sleeps⟩, ?_, ?_, ?_⟩
  · rw [run, hslept.sleeps, Policy.length_delays]
  · intro i f delay hf hasks
    rw [hsleep i f hf, delayFor_of_asks hhint hasks]
  · intro i f hf hnone
    rw [hsleep i f hf, delayFor_of_not_asks hhint hnone]

/-- In every run, the sleep after a failure that does not end it is what the failure asks for by
Retry-After, read when its attempt is over, up to a day; and if it asks for nothing, that of the
backoff with jitter. Nothing else depends on it: with the usual rules, without an attempt timeout
and under a context that stays live, two runs of exchanges that differ in nothing but what their
responses ask for make the same attempts, come to the same results but for that, pass the same
verdicts and stop alike. -/
theorem asks_decide_only_delays {settings : List Setting}
    (hbuild : (Builder.setAll {} settings).build clock = .ok r) (ctx : Context)
    (expected : List Status) (decode : Decoder α) :
    (∀ exchanges l ws, ∃ errors, r.Heeds clock ws errors
      (r.run ctx expected decode exchanges l ws).journal) ∧
    ∀ clock', ∃ r', (Builder.setAll {} settings).build clock' = .ok r' ∧
      ((∀ classifier, .classify classifier ∉ settings) →
        (∀ stops, .earlyReturn stops ∉ settings) →
      r.policy.attemptTimeout = none → r.policy.maxAttempts ≤ Budget.greatest →
      ∀ exchanges exchanges',
      List.Forall₂ (Exchange.Like ctx expected decode) exchanges exchanges' →
      ∀ l l' ws ws',
      let run := r.run ctx expected decode exchanges l ws
      let run' := r'.run ctx expected decode exchanges' l' ws'
      ctx.err run.line = none → ctx.err run'.line = none →
        run'.status.mapError HttpFault.unasked = run.status.mapError HttpFault.unasked ∧
        Entry.pick Event.invocation? run'.journal = Entry.pick Event.invocation? run.journal ∧
        Entry.pick Event.verdict? run'.journal = Entry.pick Event.verdict? run.journal ∧
        (Entry.pick Event.result? run'.journal).map (Except.mapError HttpFault.unasked) =
          (Entry.pick Event.result? run.journal).map (Except.mapError HttpFault.unasked)) := by
  have hhint := Builder.delayHint_of_build hbuild
  refine ⟨fun exchanges l ws => exists_heeds hhint ctx expected decode exchanges l ws, ?_⟩
  intro clock'
  have hbuild' := Builder.build_at hbuild clock'
  refine ⟨_, hbuild', ?_⟩
  intro hclassify hearly htimeout hlimit exchanges exchanges' hlike l l' ws ws' run run' hend hend'
  have hfollows := follows_verdict hclassify hearly hbuild
  have hfollows' := follows_verdict hclassify hearly hbuild'
  have hblind : (r.rule HttpFault.verdict).Blind HttpFault.unasked := by
    refine ⟨fun f f' h => (HttpFault.eq_of_unasked h).1, fun f f' h => ?_⟩
    obtain ⟨hverdict, hterminal⟩ := HttpFault.eq_of_unasked h
    simp only [rule, hverdict, hterminal]
  exact Policy.likewise_run hblind hfollows hfollows' htimeout htimeout hlimit
    (r.likewise_attempts hlike 1) hend hend'

private def patient : Retrier where
  policy := {
    maxAttempts := 3
    mode := .standard
    attemptTimeout := none
    backoff := .standard
    jitter := .full
    classifier := fun _ f => f.verdict
    earlyReturn := some fun _ f => f.isTerminal && !f.verdict.retryable
    delayHint := some fun n f => f.retryAfter? ⟨n, 0⟩
    sleeper := .timer }
  maxBytes := 4
  unlisted _ := false

/-- A server is not ready twice, and asks for seven seconds, and then to be left alone until the
first minute is over, two seconds into it. Asked for nothing that can be read, or for nothing at all,
the retrier waits as long as chance will have it, and comes to the same in as many attempts. -/
theorem asks_decide_only_delays_of_two :
    let settings : List Setting :=
      [.maxBytes 4, .policy (.maxAttempts 3), .policy (.jitter .full)]
    let size : Readers Nat := ⟨fun body => some body.length, fun _ => none⟩
    let bytes := fun text : String => text.toList.map fun c => UInt8.ofNat c.toNat
    let json : List (String × Bytes) := [("content-type", bytes "application/json")]
    let asking := fun text => Headers.ofList [("retry-after", bytes text)]
    let date := "Thu, 01 Jan 1970 00:01:00 GMT"
    let ready := fun fields => Exchange.serving ⟨200⟩ (.ofList (json ++ fields)) [.chunk [1, 2, 3]]
    let exchanges := [.serving ⟨503⟩ (asking "7") [], .serving ⟨503⟩ (asking date) [], ready []]
    let exchanges' := [.serving ⟨503⟩ (asking "soon") [], .serving ⟨503⟩ .empty [],
      ready [("retry-after", bytes "9")]]
    let ctx : Context := ⟨.root 0, none⟩
    let clock := fun n : Nat => (⟨n, 0⟩ : WallTime)
    let run := patient.run ctx [⟨200⟩] (size.decoder 4) exchanges {} [5, 77]
    let run' := patient.run ctx [⟨200⟩] (size.decoder 4) exchanges' {} [2 ^ 63, 2 ^ 62]
    (Builder.setAll {} settings).build clock = .ok patient ∧
      (∃ errors, patient.Heeds clock [5, 77] errors run.journal) ∧
      Entry.pick Event.sleep? run.journal = [Duration.ofSecs 7, Duration.ofSecs 58] ∧
      Entry.pick Event.sleep? run'.journal = [Duration.ofMillis 100, Duration.ofMillis 50] ∧
      Entry.pick Event.invocation? run'.journal = [1, 2, 3] ∧
      run'.status.mapError HttpFault.unasked = run.status.mapError HttpFault.unasked := by
  intro settings size bytes json asking date ready exchanges exchanges' ctx clock run run'
  have hbuild : (Builder.setAll {} settings).build clock = .ok patient := rfl
  have hlike : List.Forall₂ (Exchange.Like ctx [⟨200⟩] (size.decoder 4)) exchanges exchanges' := by
    have hblind : ∀ status headers headers' body, headers'.unasked = headers.unasked →
        Response.Like [⟨200⟩] (size.decoder 4) ⟨status, headers, body⟩
          ⟨status, headers', body⟩ := by
      intro status headers headers' body hheaders
      refine Response.like_of_blind (size.blind_decoder 4) ?_ _
      simp only [Response.unasked, hheaders]
    refine .cons ?_ (.cons ?_ (.cons ?_ .nil)) <;>
      exact Exchange.like_serving (hblind _ _ _ _ (by decide +kernel)) ctx
  obtain ⟨hheeds, hagain⟩ := asks_decide_only_delays hbuild ctx [⟨200⟩] (size.decoder 4)
  obtain ⟨r', hbuild', halike⟩ := hagain clock
  obtain rfl : patient = r' := Except.ok.inj (hbuild.symm.trans hbuild')
  obtain ⟨hstatus, hinvocations, -⟩ := halike (by simp [settings]) (by simp [settings]) rfl
    (by decide) exchanges exchanges' hlike {} {} [5, 77] [2 ^ 63, 2 ^ 62]
    (by decide +kernel) (by decide +kernel)
  have hthree : Entry.pick Event.invocation? run.journal = [1, 2, 3] := by decide +kernel
  exact ⟨hbuild, hheeds exchanges {} [5, 77], by decide +kernel, by decide +kernel,
    hinvocations.trans hthree, hstatus⟩

end Retrier

end Http

end Retry
