import Retry.Proofs.Http.Accepted
import Retry.Proofs.Http.Stopping

namespace Retry

namespace Policy

variable {ε : Type}

/-- A policy makes the same of two errors, as verdict, as a stop at once, and as a delay. -/
structure Alike (p : Policy ε) (e e' : ε) : Prop where
  verdict : ∀ view, p.classifier view e = p.classifier view e'
  stops : ∀ view, p.stopsEarly view e = p.stopsEarly view e'
  delay : ∀ number ws, p.delayFor number e ws = p.delayFor number e' ws

end Policy

namespace Http.Retrier

theorem chosen_of_forall {settings : List Setting}
    (h : ∀ classifier, .classify classifier ∉ settings) : chosen settings = fun _ f => f.verdict := by
  have hnone : settings.filterMap Setting.classifier? = [] := by
    refine List.filterMap_eq_nil_iff.mpr fun setting hsetting => ?_
    cases setting with
    | classify classifier => exact absurd hsetting (h classifier)
    | policy | maxBytes | earlyReturn | unlisted => rfl
  rw [chosen, hnone]
  rfl

theorem isRetryable_eq (r : Retrier) (s : Status) :
    r.isRetryable s = s.listed?.getD (r.unlisted s) := by
  unfold isRetryable
  cases s.listed? <;> rfl

/-- A retrier with the usual rules goes by what faults say of themselves. -/
theorem follows_verdict {settings : List Setting} {clock : Nat → WallTime} {r : Retrier}
    (hclassify : ∀ classifier, .classify classifier ∉ settings)
    (hearly : ∀ stops, .earlyReturn stops ∉ settings)
    (hbuild : (Builder.setAll {} settings).build clock = .ok r) :
    r.policy.Follows (r.rule HttpFault.verdict) :=
  follows_rule hearly hbuild fun view f => by rw [chosen_of_forall hclassify]

/-- A retrier with the usual rules makes the same of two rejections that differ in their bodies. -/
theorem alike_of_build {settings : List Setting} {clock : Nat → WallTime} {r : Retrier}
    (hclassify : ∀ classifier, .classify classifier ∉ settings)
    (hearly : ∀ stops, .earlyReturn stops ∉ settings)
    (hbuild : (Builder.setAll {} settings).build clock = .ok r) (status : Status) (retryable : Bool)
    (headers : Headers) (body body' : Bytes) :
    r.policy.Alike (.status ⟨status, retryable, headers, body⟩)
      (.status ⟨status, retryable, headers, body'⟩) := by
  have hfollows := follows_verdict hclassify hearly hbuild
  have hhint : ∀ number, r.policy.hint? number (.status ⟨status, retryable, headers, body⟩) =
      r.policy.hint? number (.status ⟨status, retryable, headers, body'⟩) := by
    intro number
    simp only [Policy.hint?, Builder.delayHint_of_build hbuild]
    rfl
  constructor
  · intro view
    rw [hfollows.classifier, hfollows.classifier]
    rfl
  · intro view
    rw [hfollows.earlyReturn, hfollows.earlyReturn]
    rfl
  · intro number ws
    simp only [Policy.delayFor, hhint]

variable {α : Type}

/-- What can become of a rejected response in an attempt that is at `line` at its end. -/
inductive Rejects (r : Retrier) (own : Context) (response : Response) (line : Timeline) :
    Ending HttpFault α → Prop where
  | drained (hread : r.maxBytes < (Part.content response.body).length ∨
        Part.close response.body = .complete) :
      Rejects r own response line (.finished (.error (.status ⟨response.status,
        response.status.listed?.getD (r.unlisted response.status), response.headers,
        (Part.content response.body).take
          (min (Part.content response.body).length r.maxBytes)⟩)))
  | broken {fault : Fault} (hwithin : (Part.content response.body).length ≤ r.maxBytes)
      (hclose : Part.close response.body = .broken fault) :
      Rejects r own response line (.finished (.error (.status ⟨response.status,
        response.status.listed?.getD (r.unlisted response.status), response.headers, []⟩)))
  | cutOff {reason : Reason} (hdone : own.err line = some reason) :
      Rejects r own response line (.cutOff reason)
  | never (hwithin : (Part.content response.body).length ≤ r.maxBytes)
      (hclose : Part.close response.body = .never) : Rejects r own response line .stuck

variable {r : Retrier} {expected : List Status} {decode : Decoder α} {own : Context}
  {response : Response} {q : Played Note HttpFault α}

theorem Responds.rejects (h : r.Responds expected decode own response q)
    (hrejected : accepts expected response.status = false) :
    r.Rejects own response q.line q.ending := by
  cases h with
  | cutOff hnotes hdone => exact .cutOff hdone
  | never hnotes hwithin hclose => exact .never hwithin hclose
  | read hnotes hreads =>
    simp only [conclusion, hrejected, Bool.false_eq_true, if_false, rejection, isRetryable_eq]
    have hkept : (Part.content response.body).take
        (min (Part.content response.body).length r.maxBytes) =
          (Part.content response.body).take r.maxBytes := by
      rw [Nat.min_comm]
      exact List.take_eq_take_min.symm
    cases hreads with
    | tooLong hover =>
      simp only [kept, ← hkept]
      exact .drained (Or.inl hover)
    | whole hwithin hclose =>
      rw [List.take_of_length_le hwithin] at hkept
      simp only [kept]
      rw [← hkept]
      exact .drained (Or.inr hclose)
    | broken hwithin hclose => exact .broken hwithin hclose

/-- An attempt that came to a result after a rejection came to the status error of that. -/
theorem Rejects.exists_body {line : Timeline} {result : Except HttpFault α}
    (h : r.Rejects own response line (.finished result)) : ∃ body,
      result = .error (.status ⟨response.status,
        response.status.listed?.getD (r.unlisted response.status), response.headers, body⟩) := by
  cases h with
  | drained => exact ⟨_, rfl⟩
  | broken => exact ⟨_, rfl⟩

/-- An attempt at this exchange gets the response, whose status is not expected, and comes to
`result`. -/
def Refused (r : Retrier) (expected : List Status) (decode : Decoder α) (x : Exchange)
    (response : Response) (result : Except HttpFault α) : Prop :=
  ∃ number own start, x.Answers own start response ∧ expected ≠ [] ∧ response.status ∉ expected ∧
    (r.played expected decode number x own start).ending = .finished result

theorem accepts_eq_false {expected : List Status} {status : Status} (hsome : expected ≠ [])
    (hnot : status ∉ expected) : accepts expected status = false := by
  rw [Bool.eq_false_iff, ne_eq, accepts_iff]
  rintro (hnil | hmem)
  · exact hsome hnil
  · exact hnot hmem

theorem Refused.exists_body {x : Exchange} {result : Except HttpFault α}
    (h : r.Refused expected decode x response result) : ∃ body,
      result = .error (.status ⟨response.status,
        response.status.listed?.getD (r.unlisted response.status), response.headers, body⟩) := by
  obtain ⟨number, own, start, hanswers, hsome, hnot, hending⟩ := h
  have hresponds : r.Responds expected decode own response
    (r.played expected decode number x own start) := responds_played hanswers
  have hrejects := hresponds.rejects (accepts_eq_false hsome hnot)
  rw [hending] at hrejects
  exact hrejects.exists_body

/-- In every run, an attempt that gets a response whose status is not expected fails with that
status, the headers, the verdict of the table or else of the fallback, and as much of the body as is
allowed, or nothing if the body broke within that; unless it is cut off, or the body never ends. Two
such failures with the same status and headers are alike to a retrier with the usual rules, whatever
their bodies were. -/
theorem rejected_by_status_alone (r : Retrier) (ctx : Context) (expected : List Status)
    (decode : Decoder α) (exchanges : List Exchange) (l : Timeline) (ws : Words) :
    let run := r.run ctx expected decode exchanges l ws
    (∀ start number own err, ⟨start, .invoked number own err⟩ ∈ run.journal →
      ∃ i x, number = i + 1 ∧ exchanges[i]? = some x ∧
        ∀ response, x.Answers own start response → expected ≠ [] → response.status ∉ expected →
          let q := r.played expected decode number x own start
          r.Rejects own response q.line q.ending ∧
            Entry.pick Event.result? (Entry.during number run.journal) =
              (Policy.resultOf q.ending).toList) ∧
    ∀ settings clock, (∀ classifier, .classify classifier ∉ settings) →
      (∀ stops, .earlyReturn stops ∉ settings) → (Builder.setAll {} settings).build clock = .ok r →
      ∀ (expected' : List Status) (decode' : Decoder α) (x x' : Exchange)
        (response response' : Response) (f f' : HttpFault),
        r.Refused expected decode x response (.error f) →
        r.Refused expected' decode' x' response' (.error f') →
        response.status = response'.status → response.headers = response'.headers →
        r.policy.Alike f f' := by
  intro run
  refine ⟨fun start number own err hinvoked => ?_, ?_⟩
  · obtain ⟨i, x, hnumber, hx, -, hresult⟩ := exists_exchange hinvoked
    refine ⟨i, x, hnumber, hx, fun response hanswers hsome hnot => ⟨?_, hresult⟩⟩
    have hresponds : r.Responds expected decode own response
      (r.played expected decode number x own start) := responds_played hanswers
    exact hresponds.rejects (accepts_eq_false hsome hnot)
  · intro settings now hclassify hearly hbuild expected' decode' x x' response response' f f' h h'
      hstatus hheaders
    obtain ⟨body, hf⟩ := h.exists_body
    obtain ⟨body', hf'⟩ := h'.exists_body
    rw [Except.error.inj hf, Except.error.inj hf', ← hstatus, ← hheaders]
    exact alike_of_build hclassify hearly hbuild _ _ _ body body'

private def cautious : Retrier where
  policy := {
    maxAttempts := 3
    mode := .standard
    attemptTimeout := none
    backoff := .standard
    jitter := .none
    classifier := fun _ f => f.verdict
    earlyReturn := some fun _ f => f.isTerminal && !f.verdict.retryable
    delayHint := some fun _ f => f.retryAfter? ⟨0, 0⟩
    sleeper := .timer }
  maxBytes := 4
  unlisted _ := false

/-- Twice a server is not ready and asks for seven seconds, once with more of a body than is allowed
and once with one that breaks: both are alike. Then nothing is there, which stops the run, although
that body breaks too. -/
theorem rejected_by_status_alone_thrice :
    let settings : List Setting := [.maxBytes 4, .policy (.maxAttempts 3)]
    let size : Decoder Nat := fun _ body => .ok body.length
    let fault : Fault := .io (.plain .other)
    let seven : Headers := .ofList [("retry-after", [55])]
    let long : Response := ⟨⟨503⟩, seven, [.chunk [1, 2, 3], .chunk [4, 5], .broken fault]⟩
    let short : Response := ⟨⟨503⟩, seven, [.chunk [1], .chunk [], .broken fault]⟩
    let missing : Response := ⟨⟨404⟩, .empty, [.broken fault]⟩
    let serving := fun response : Response =>
      Exchange.serving response.status response.headers response.body
    let ctx : Context := ⟨.root 0, none⟩
    let run :=
      cautious.run ctx [⟨200⟩] size [serving long, serving short, serving missing] {} []
    let third := cautious.played [⟨200⟩] size 3 (serving missing) ctx { now := 14000000000 }
    (Builder.setAll {} settings).build (fun _ => ⟨0, 0⟩) = .ok cautious ∧
      run.status = .returned (.failure (.status ⟨⟨404⟩, false, .empty, []⟩) 3 .earlyReturn) ∧
      cautious.Rejects ctx missing third.line third.ending ∧
      cautious.policy.Alike (.status ⟨⟨503⟩, true, seven, [1, 2, 3, 4]⟩)
        (.status ⟨⟨503⟩, true, seven, []⟩) := by
  intro settings size fault seven long short missing serving ctx run third
  obtain ⟨hattempts, halike⟩ := rejected_by_status_alone cautious ctx [⟨200⟩] size
    [serving long, serving short, serving missing] {} []
  have hbuild : (Builder.setAll {} settings).build (fun _ => ⟨0, 0⟩) = .ok cautious := rfl
  have hstatus : run.status =
      .returned (.failure (.status ⟨⟨404⟩, false, .empty, []⟩) 3 .earlyReturn) := by
    decide +kernel
  have hthird : run.journal[32]? = some ⟨{ now := 14000000000 }, .invoked 3 ctx none⟩ := by
    decide +kernel
  have hlong : cautious.Refused [⟨200⟩] size (serving long) long
      (.error (.status ⟨⟨503⟩, true, seven, [1, 2, 3, 4]⟩)) :=
    ⟨1, ctx, {}, Exchange.answers_serving _ _ _ _ _, by decide, by decide, rfl⟩
  have hshort : cautious.Refused [⟨200⟩] size (serving short) short
      (.error (.status ⟨⟨503⟩, true, seven, []⟩)) :=
    ⟨2, ctx, {}, Exchange.answers_serving _ _ _ _ _, by decide, by decide, rfl⟩
  refine ⟨hbuild, hstatus, ?_, ?_⟩
  · obtain ⟨i, x, hnumber, hx, hrejects⟩ := hattempts _ _ _ _ (List.mem_of_getElem? hthird)
    obtain rfl : i = 2 := by omega
    obtain rfl := Option.some.inj hx
    exact (hrejects missing (Exchange.answers_serving _ _ _ _ _) (by decide) (by decide)).1
  · exact halike settings _ (by simp [settings]) (by simp [settings]) hbuild _ _ _ _ long short
      _ _ hlong hshort rfl rfl

end Http.Retrier

end Retry
