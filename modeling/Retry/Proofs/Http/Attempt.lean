import Retry.Http.Retrier.Run
import Retry.Proofs.Http.Reading
import Retry.Proofs.Segment

namespace Retry.Http

/-- The request of an attempt is built, and the transport answers it with this response. -/
def Exchange.Answers (x : Exchange) (own : Context) (start : Timeline) (response : Response) :
    Prop :=
  ∃ request, x.build own = .ok request ∧
    ((x.send request).play own start).ending = .finished (.ok response)

namespace Exchange.Answers

variable {x : Exchange} {own : Context} {start : Timeline} {response response' : Response}

theorem ending_send {request : Request} (h : x.Answers own start response)
    (hbuild : x.build own = .ok request) :
    ((x.send request).play own start).ending = .finished (.ok response) := by
  obtain ⟨request', hbuild', hsend⟩ := h
  obtain rfl := Except.ok.inj (hbuild.symm.trans hbuild')
  exact hsend

theorem eq (h : x.Answers own start response) (h' : x.Answers own start response') :
    response = response' := by
  obtain ⟨request, hbuild, hsend⟩ := h
  exact Except.ok.inj (Ending.finished.inj (hsend.symm.trans (h'.ending_send hbuild)))

end Exchange.Answers

/-- What the decoder was given, where it was asked. -/
def Note.decoding? : Note → Option (Headers × Bytes)
  | decoded headers body => some (headers, body)
  | _ => none

theorem Note.decoding?_of_isReading {note : Note} (h : note.isReading = true) :
    note.decoding? = none := by
  cases note with
  | chunk | ended | broken => rfl
  | asked | sent | opened | closed | fellBack | decoded | logged => cases h

namespace Retrier

variable {α : Type}

/-- What is done with an accepted response of which this was read, and what comes of it. -/
def acceptance (r : Retrier) (decode : Decoder α) (response : Response) :
    Except Fault Intake → List Note × Except HttpFault α
  | .error fault => ([.closed], .error (.transport fault))
  | .ok ⟨_, true⟩ => ([.closed], .error (.decode (.tooLarge r.maxBytes)))
  | .ok ⟨body, false⟩ =>
    ([.closed, .decoded response.headers body],
      (decode response.headers body).mapError .decode)

/-- What is kept of a rejected body of which this was read. -/
def kept : Except Fault Intake → Bytes
  | .ok intake => intake.bytes
  | .error _ => []

def drainFailed : Except Fault Intake → List Note
  | .ok _ => []
  | .error _ => [.logged .drainFailed]

def fellBack (s : Status) : List Note := if s.listed?.isNone then [.fellBack s] else []

def rejection (r : Retrier) (response : Response) (read : Except Fault Intake) : Rejection :=
  ⟨response.status, r.isRetryable response.status, response.headers, kept read⟩

/-- What is noted of a rejected response of which this was read. -/
def rejecting (r : Retrier) (response : Response) (read : Except Fault Intake) : List Note :=
  drainFailed read ++ .closed :: .logged (.drained (kept read).length) ::
    (fellBack response.status ++
      [.logged (.unexpectedStatus response.status (r.isRetryable response.status))])

def conclusion (r : Retrier) (expected : List Status) (decode : Decoder α) (response : Response)
    (read : Except Fault Intake) : List Note × Except HttpFault α :=
  if accepts expected response.status then r.acceptance decode response read
  else (r.rejecting response read, .error (.status (r.rejection response read)))

theorem accept_eq (r : Retrier) (decode : Decoder α) (response : Response) :
    r.accept decode response = (Intake.read r.maxBytes response.body).andThen fun read =>
      .noteAll (r.acceptance decode response read).1
        (.finish (r.acceptance decode response read).2) := by
  unfold accept
  congr 1
  funext read
  match read with
  | .error fault => rfl
  | .ok ⟨_, true⟩ => rfl
  | .ok ⟨body, false⟩ => rfl

theorem reject_eq (r : Retrier) (response : Response) :
    (r.reject response : Task Note HttpFault α) =
      (Intake.read r.maxBytes response.body).andThen fun read =>
        .noteAll (r.rejecting response read)
          (.finish (.error (.status (r.rejection response read)))) := by
  unfold reject drain Task.bind
  rw [Task.andThen_assoc]
  congr 1
  funext read
  cases read <;> rfl

theorem respond_eq (r : Retrier) (expected : List Status) (decode : Decoder α)
    (response : Response) :
    (if accepts expected response.status then r.accept decode response else r.reject response) =
      (Intake.read r.maxBytes response.body).andThen fun read =>
        .noteAll (r.conclusion expected decode response read).1
          (.finish (r.conclusion expected decode response read).2) := by
  unfold conclusion
  split
  · exact r.accept_eq decode response
  · exact r.reject_eq response

theorem send_bind_eq (t : Task Empty Fault Response) (k : Response → Task Note HttpFault α) :
    (t.quiet.mapError HttpFault.transport).bind k = t.quiet.andThen fun
      | .ok response => k response
      | .error fault => .fail (.transport fault) := by
  unfold Task.mapError Task.bind
  rw [Task.andThen_assoc]
  congr 1
  funext result
  cases result <;> rfl

/-- What an attempt leaves, begun at `start` under `own`. -/
def played (r : Retrier) (expected : List Status) (decode : Decoder α) (number : Nat) (x : Exchange)
    (own : Context) (start : Timeline) : Played Note HttpFault α :=
  (r.attempt expected decode number x own).play own start

/-- How an attempt at an exchange can go. -/
inductive Goes (r : Retrier) (expected : List Status) (decode : Decoder α) (number : Nat)
    (x : Exchange) (own : Context) (start : Timeline) : Played Note HttpFault α → Prop where
  | unbuilt {fault : HttpFault} (hbuild : x.build own = .error fault) :
      Goes r expected decode number x own start
        ⟨.finished (.error fault), [(start, .asked number own.deadline)], start⟩
  | failed {request : Request} {fault : Fault} (hbuild : x.build own = .ok request)
      (hsend : ((x.send request).play own start).ending = .finished (.error fault)) :
      Goes r expected decode number x own start
        ⟨.finished (.error (.transport fault)),
          [(start, .asked number own.deadline), (start, .sent request)],
          ((x.send request).play own start).line⟩
  | unanswered {request : Request} {cut : Option Reason} (hbuild : x.build own = .ok request)
      (hsend : ((x.send request).play own start).ending = .without cut) :
      Goes r expected decode number x own start
        ⟨.without cut, [(start, .asked number own.deadline), (start, .sent request)],
          ((x.send request).play own start).line⟩
  | unread {request : Request} {response : Response} {answered : Timeline}
      {p : Played Note Fault Intake} {cut : Option Reason} (hbuild : x.build own = .ok request)
      (hsend : ((x.send request).play own start).ending = .finished (.ok response))
      (hanswered : ((x.send request).play own start).line = answered)
      (hp : (Intake.read r.maxBytes response.body).play own answered = p)
      (hread : p.ending = .without cut) :
      Goes r expected decode number x own start
        ⟨.without cut,
          (start, .asked number own.deadline) :: (start, .sent request) ::
            (answered, .opened response.status) :: p.notes, p.line⟩
  | read {request : Request} {response : Response} {answered : Timeline}
      {p : Played Note Fault Intake} {read : Except Fault Intake}
      (hbuild : x.build own = .ok request)
      (hsend : ((x.send request).play own start).ending = .finished (.ok response))
      (hanswered : ((x.send request).play own start).line = answered)
      (hp : (Intake.read r.maxBytes response.body).play own answered = p)
      (hread : p.ending = .finished read) :
      Goes r expected decode number x own start
        ⟨.finished (r.conclusion expected decode response read).2,
          (start, .asked number own.deadline) :: (start, .sent request) ::
            (answered, .opened response.status) ::
            (p.notes ++ (r.conclusion expected decode response read).1.map (p.line, ·)), p.line⟩

theorem goes_played (r : Retrier) (expected : List Status) (decode : Decoder α) (number : Nat)
    (x : Exchange) (own : Context) (start : Timeline) :
    r.Goes expected decode number x own start
      (r.played expected decode number x own start) := by
  unfold played attempt
  cases hbuild : x.build own with
  | error fault => exact .unbuilt hbuild
  | ok request =>
    simp only [Task.play, send_bind_eq, respond_eq, Task.play_andThen, Task.play_quiet]
    rcases ((x.send request).play own start).ending.finished_or_without with
      ⟨result, hsend⟩ | ⟨cut, hsend⟩
    · have hquiet : (((x.send request).play own start).quiet : Played Note _ _).ending =
          .finished result := hsend
      rw [Played.andThen_of_finished hquiet]
      cases result with
      | error fault => exact .failed hbuild hsend
      | ok response =>
        simp only [Task.play, Task.play_andThen, Task.play_noteAll_finish]
        generalize hp : (Intake.read r.maxBytes response.body).play own _ = p
        rcases p.ending.finished_or_without with ⟨read, hread⟩ | ⟨cut, hread⟩
        · rw [Played.andThen_of_finished hread]
          exact .read hbuild hsend rfl hp hread
        · rw [Played.andThen_of_without hread]
          exact .unread hbuild hsend rfl hp hread
    · have hquiet : (((x.send request).play own start).quiet : Played Note _ _).ending =
          .without cut := hsend
      rw [Played.andThen_of_without hquiet]
      exact .unanswered hbuild hsend

/-- How an attempt that got a response can go: it is cut off, the body never ends, or something was
read of it and is concluded from. -/
inductive Responds (r : Retrier) (expected : List Status) (decode : Decoder α) (own : Context)
    (response : Response) : Played Note HttpFault α → Prop where
  | cutOff {reason : Reason} {notes : List (Timeline × Note)} {line : Timeline}
      (hnotes : ∀ note ∈ notes, note.2.decoding? = none) (hdone : own.err line = some reason) :
      Responds r expected decode own response ⟨.cutOff reason, notes, line⟩
  | never {notes : List (Timeline × Note)} {line : Timeline}
      (hnotes : ∀ note ∈ notes, note.2.decoding? = none)
      (hwithin : (Part.content response.body).length ≤ r.maxBytes)
      (hclose : Part.close response.body = .never) :
      Responds r expected decode own response ⟨.stuck, notes, line⟩
  | read {read : Except Fault Intake} {notes : List (Timeline × Note)} {line : Timeline}
      (hnotes : ∀ note ∈ notes, note.2.decoding? = none)
      (hreads : Intake.Reads r.maxBytes (Part.content response.body) (Part.close response.body)
        (some read)) :
      Responds r expected decode own response
        ⟨.finished (r.conclusion expected decode response read).2,
          notes ++ (r.conclusion expected decode response read).1.map (line, ·), line⟩

theorem responds_played {r : Retrier} {expected : List Status} {decode : Decoder α} {number : Nat}
    {x : Exchange} {own : Context} {start : Timeline} {response : Response}
    (hanswers : x.Answers own start response) : r.Responds expected decode own response
      (r.played expected decode number x own start) := by
  have hgoes := r.goes_played expected decode number x own start
  generalize r.played expected decode number x own start = q at hgoes ⊢
  have hopening : ∀ {request : Request} {answered : Timeline} {p : Played Note Fault Intake},
      (Intake.read r.maxBytes response.body).play own answered = p →
      ∀ note ∈ (start, .asked number own.deadline) :: (start, .sent request) ::
        (answered, .opened response.status) :: p.notes, note.2.decoding? = none := by
    rintro request answered p rfl
    simp only [List.forall_mem_cons]
    exact ⟨rfl, rfl, rfl, fun note hnote =>
      Note.decoding?_of_isReading (Intake.isReading_of_mem_notes hnote)⟩
  cases hgoes with
  | unbuilt hbuild =>
    obtain ⟨request, hbuilt, -⟩ := hanswers
    exact nomatch hbuild.symm.trans hbuilt
  | failed hbuild hsend => exact nomatch hsend.symm.trans (hanswers.ending_send hbuild)
  | unanswered hbuild hsend =>
    exact absurd (hsend.symm.trans (hanswers.ending_send hbuild)) (Ending.without_ne_finished _ _)
  | @unread _ _ _ p cut hbuild hsend hanswered hp hread =>
    obtain rfl := hanswers.eq ⟨_, hbuild, hsend⟩
    cases cut with
    | some reason =>
      have hdone : own.err p.line = some reason :=
        hp ▸ Context.err_of_signal (Task.signal_of_cutOff (hp ▸ hread))
      exact .cutOff (hopening hp) hdone
    | none =>
      cases Intake.reads_of_stuck (hp ▸ hread) with
      | never hwithin hclose => exact .never (hopening hp) hwithin hclose
  | @read _ _ _ p read hbuild hsend hanswered hp hread =>
    obtain rfl := hanswers.eq ⟨_, hbuild, hsend⟩
    exact .read (hopening hp) (Intake.reads_of_finished (hp ▸ hread))

/-- What a run attempts is an exchange of its list, that of the attempt's number. -/
theorem exchange_of_made {r : Retrier} {own : Context} {expected : List Status} {decode : Decoder α}
    {exchanges : List Exchange} {start : Timeline} {number : Nat} {op : Operation Note HttpFault α}
    {journal : List (Entry Note HttpFault α)}
    (h : Policy.Made ((exchanges.zipIdx 1).map fun (x, number) => r.attempt expected decode number x)
      journal number op own start) :
    ∃ i x, number = i + 1 ∧ exchanges[i]? = some x ∧ op = r.attempt expected decode number x := by
  obtain ⟨i, rfl, hop⟩ := h.op_eq
  rw [List.getElem?_map, List.getElem?_zipIdx, Option.map_map, Option.map_eq_some_iff] at hop
  obtain ⟨x, hx, rfl⟩ := hop
  refine ⟨i, x, rfl, hx, ?_⟩
  rw [Nat.add_comm i 1]
  rfl

section Runs

variable {r : Retrier} {ctx own : Context} {expected : List Status} {decode : Decoder α}
  {exchanges : List Exchange} {l start : Timeline} {ws : Words}

/-- An attempt of a run is made with the exchange of its number, and its entries in the journal tell
what its work leaves. -/
theorem exists_exchange {number : Nat} {err : Option Reason}
    (h : ⟨start, .invoked number own err⟩ ∈ (r.run ctx expected decode exchanges l ws).journal) :
    ∃ i x, number = i + 1 ∧ exchanges[i]? = some x ∧
      Entry.pick Event.note?
          (Entry.during number (r.run ctx expected decode exchanges l ws).journal) =
        (r.played expected decode number x own start).notes.map (·.2) ∧
      Entry.pick Event.result?
          (Entry.during number (r.run ctx expected decode exchanges l ws).journal) =
        (Policy.resultOf (r.played expected decode number x own start).ending).toList := by
  obtain ⟨op, hmade⟩ := Policy.exists_made h
  have hnotes := Policy.pick_during (f := Event.note?) (fun x hx => hx.2.1) hmade
  have hresult := Policy.pick_during (f := Event.result?) (fun x hx => hx.2.2) hmade
  rw [Policy.pick_note_entriesOf] at hnotes
  rw [Policy.pick_result_entriesOf] at hresult
  obtain ⟨i, x, hnumber, hx, rfl⟩ := exchange_of_made hmade
  exact ⟨i, x, hnumber, hx, hnotes, hresult⟩

theorem exists_exchange_of_noted {line : Timeline} {note : Note}
    (h : ⟨line, .noted note⟩ ∈ (r.run ctx expected decode exchanges l ws).journal) :
    ∃ i x own start err,
      ⟨start, .invoked (i + 1) own err⟩ ∈ (r.run ctx expected decode exchanges l ws).journal ∧
        exchanges[i]? = some x ∧
        (line, note) ∈ (r.played expected decode (i + 1) x own start).notes := by
  obtain ⟨number, op, own, start, hmade, hnote⟩ := Policy.exists_made_of_noted h
  obtain ⟨i, x, rfl, hx, rfl⟩ := exchange_of_made hmade
  obtain ⟨err, hinvoked⟩ := hmade.invoked
  exact ⟨i, x, own, start, err, hinvoked, hx, hnote⟩

end Runs

/-- A retrier that tries three times and waits as usual, without a rule for stopping at once. -/
def thrice (maxBytes : Nat) (attemptTimeout : Option Nat) : Retrier where
  policy := {
    maxAttempts := 3
    mode := .allErrors
    attemptTimeout := attemptTimeout
    backoff := .standard
    jitter := .none
    classifier := fun _ f => f.verdict
    earlyReturn := none
    delayHint := none
    sleeper := .timer }
  maxBytes := maxBytes
  unlisted _ := false

end Retrier

/-- An exchange with a server that answers at once, whatever it is asked. -/
def Exchange.serving (status : Status) (headers : Headers) (body : List Part) : Exchange where
  build _ := .ok ⟨"GET", "http://host/", .empty, []⟩
  send _ := .succeed ⟨status, headers, body⟩

theorem Exchange.answers_serving (status : Status) (headers : Headers) (body : List Part)
    (own : Context) (start : Timeline) :
    (serving status headers body).Answers own start ⟨status, headers, body⟩ := ⟨_, rfl, rfl⟩

end Retry.Http
