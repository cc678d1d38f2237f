import Retry.Proofs.Http.Held

namespace Retry.Http

deriving instance DecidableEq for Note

namespace Note

/-- A call of the request builder or of the transport. -/
def isCall : Note → Bool
  | asked .. | sent _ => true
  | _ => false

def opened? : Note → Option Status
  | opened status => some status
  | _ => none

def isDecoded : Note → Bool
  | decoded .. => true
  | _ => false

/-- What may be left to do when a body is closed. -/
def isAftermath : Note → Bool
  | fellBack _ | decoded .. | logged _ => true
  | _ => false

theorem of_isReading {note : Note} (h : note.isReading = true) :
    note.isCall = false ∧ note.opened? = none ∧ note ≠ .closed ∧ note.isDecoded = false := by
  cases note with
  | chunk | ended | broken => exact ⟨rfl, rfl, nofun, rfl⟩
  | asked | sent | opened | closed | fellBack | decoded | logged => cases h

theorem of_isAftermath {note : Note} (h : note.isAftermath = true) :
    note.isCall = false ∧ note.opened? = none ∧ note.isReading = false ∧ note ≠ .closed := by
  cases note with
  | fellBack | decoded | logged => exact ⟨rfl, rfl, rfl, nofun⟩
  | asked | sent | opened | chunk | ended | broken | closed => cases h

/-- Anything that is done with the body of a response. -/
def isOfBody : Note → Bool
  | opened _ | chunk _ | ended | broken | closed | decoded .. => true
  | _ => false

end Note

variable {α : Type}

/-- What an attempt did, told by its notes in order and by how it ended: whom it called, what it read,
and that it closed the body that it read, or was cut off and did not. -/
structure Orderly (x : Exchange) (number : Nat) (own : Context) (start : Timeline)
    (notes : List Note) (ending : Ending HttpFault α) : Prop where
  calls : ∃ rest, notes = .asked number own.deadline ::
      ((x.build own).toOption.toList.map .sent ++ rest) ∧ ∀ note ∈ rest, note.isCall = false
  unanswered : (∀ response, ¬ x.Answers own start response) → ∀ note ∈ notes, note.isOfBody = false
  answered : ∀ response, x.Answers own start response →
    notes.filterMap Note.opened? = [response.status] ∧
      notes.filter Note.isReading <+: Part.readings response.body
  closed : ∀ response result, x.Answers own start response → ending = .finished result →
    ∃ before after, notes = before ++ .closed :: after ∧
      (∀ note ∈ before, note ≠ .closed ∧ note.isDecoded = false) ∧
      ∀ note ∈ after, note ≠ .closed ∧ note.opened? = none ∧ note.isReading = false
  dropped : (∀ result, ending ≠ .finished result) →
    ∀ note ∈ notes, note ≠ .closed ∧ note.isDecoded = false

namespace Retrier

theorem notes_conclusion (r : Retrier) (expected : List Status) (decode : Decoder α)
    (response : Response) (read : Except Fault Intake) : ∃ aside after,
      (r.conclusion expected decode response read).1 = aside ++ .closed :: after ∧
        (∀ note ∈ aside, ∃ log, note = .logged log) ∧ ∀ note ∈ after, note.isAftermath = true := by
  unfold conclusion
  split
  · refine ⟨[], ?_⟩
    match read with
    | .error fault => exact ⟨[], rfl, nofun, nofun⟩
    | .ok ⟨_, true⟩ => exact ⟨[], rfl, nofun, nofun⟩
    | .ok ⟨body, false⟩ => exact ⟨[_], rfl, nofun, by simp [Note.isAftermath]⟩
  · refine ⟨drainFailed read, _, rfl, ?_, ?_⟩
    · cases read <;> simp [drainFailed]
    · cases hlisted : response.status.listed? <;> simp [fellBack, hlisted, Note.isAftermath]

end Retrier

namespace Orderly

variable {number : Nat} {x : Exchange} {own : Context} {start : Timeline} {request : Request}
  {response : Response} {readings : List Note}

/-- Without a response there is nothing but the calls. -/
theorem of_unanswered (hnot : ∀ response, ¬ x.Answers own start response)
    (ending : Ending HttpFault α) : Orderly x number own start
      (.asked number own.deadline :: (x.build own).toOption.toList.map .sent) ending where
  calls := ⟨[], by rw [List.append_nil], nofun⟩
  unanswered := by simp [Note.isOfBody]
  answered := fun response hanswers => absurd hanswers (hnot response)
  closed := fun response _ hanswers => absurd hanswers (hnot response)
  dropped := by simp [Note.isDecoded]

/-- What is noted behind a response neither calls anyone nor opens another body, and what is left to
do with the body does not read it. -/
private theorem answered_notes (number : Nat) (tail : List Note)
    (hbuild : x.build own = .ok request) (hreadings : readings <+: Part.readings response.body)
    {notes : List Note}
    (hnotes : notes = .asked number own.deadline :: .sent request :: .opened response.status ::
      (readings ++ tail))
    (htail : ∀ note ∈ tail, note.isCall = false ∧ note.opened? = none ∧ note.isReading = false) :
    (∃ rest, notes = .asked number own.deadline ::
        ((x.build own).toOption.toList.map .sent ++ rest) ∧ ∀ note ∈ rest, note.isCall = false) ∧
      notes.filterMap Note.opened? = [response.status] ∧
      notes.filter Note.isReading <+: Part.readings response.body := by
  have hread := Note.isReading_of_prefix hreadings
  have hbehind : ∀ note ∈ readings ++ tail, note.isCall = false ∧ note.opened? = none := by
    intro note hnote
    rcases List.mem_append.mp hnote with hnote | hnote
    · obtain ⟨hcall, hopened, -⟩ := Note.of_isReading (hread note hnote)
      exact ⟨hcall, hopened⟩
    · exact ⟨(htail note hnote).1, (htail note hnote).2.1⟩
  have hopened : (readings ++ tail).filterMap Note.opened? = [] :=
    List.filterMap_eq_nil_iff.mpr fun note hnote => (hbehind note hnote).2
  have hfilter : tail.filter Note.isReading = [] :=
    List.filter_eq_nil_iff.mpr fun note hnote => by simp [(htail note hnote).2.2]
  have hfilter : (readings ++ tail).filter Note.isReading = readings := by
    rw [List.filter_append, hfilter, List.append_nil]
    exact List.filter_eq_self.mpr hread
  rw [← hfilter] at hreadings
  rw [hnotes, hbuild]
  exact ⟨⟨.opened response.status :: (readings ++ tail), rfl,
      List.forall_mem_cons.mpr ⟨rfl, fun note hnote => (hbehind note hnote).1⟩⟩,
    congrArg (response.status :: ·) hopened, hreadings⟩

/-- A response whose body is not read to an end is dropped with it. -/
theorem of_dropped (number : Nat) (hbuild : x.build own = .ok request)
    (hanswers : x.Answers own start response)
    (hreadings : readings <+: Part.readings response.body) (cut : Option Reason) :
    Orderly x number own start
      (.asked number own.deadline :: .sent request :: .opened response.status :: readings)
      (.without cut : Ending HttpFault α) := by
  have hread := Note.isReading_of_prefix hreadings
  obtain ⟨hcalls, hnotes⟩ := answered_notes number [] hbuild hreadings rfl nofun
  rw [List.append_nil] at hcalls hnotes
  exact {
    calls := hcalls
    unanswered := fun hnot => absurd hanswers (hnot response)
    answered := fun response' hanswers' => hanswers.eq hanswers' ▸ hnotes
    closed := fun _ result _ hfinished => absurd hfinished (Ending.without_ne_finished cut result)
    dropped := by
      intro _
      simp only [List.forall_mem_cons]
      exact ⟨⟨nofun, rfl⟩, ⟨nofun, rfl⟩, ⟨nofun, rfl⟩, fun note hnote =>
        (Note.of_isReading (hread note hnote)).2.2⟩ }

/-- A response whose body is read to an end is closed behind that, before what was read is used. -/
theorem of_closed (number : Nat) (hbuild : x.build own = .ok request)
    (hanswers : x.Answers own start response)
    (hreadings : readings <+: Part.readings response.body) {aside after : List Note}
    (haside : ∀ note ∈ aside, ∃ log, note = .logged log)
    (hafter : ∀ note ∈ after, note.isAftermath = true) (result : Except HttpFault α) :
    Orderly x number own start
      (.asked number own.deadline :: .sent request :: .opened response.status ::
        (readings ++ (aside ++ .closed :: after))) (.finished result) := by
  have hread := Note.isReading_of_prefix hreadings
  have htail : ∀ note ∈ aside ++ .closed :: after,
      note.isCall = false ∧ note.opened? = none ∧ note.isReading = false := by
    intro note hnote
    rcases List.mem_append.mp hnote with hnote | hnote
    · obtain ⟨log, rfl⟩ := haside note hnote
      exact ⟨rfl, rfl, rfl⟩
    · rcases List.mem_cons.mp hnote with rfl | hnote
      · exact ⟨rfl, rfl, rfl⟩
      · obtain ⟨hcall, hopened, hreading, -⟩ := Note.of_isAftermath (hafter note hnote)
        exact ⟨hcall, hopened, hreading⟩
  obtain ⟨hcalls, hnotes⟩ := answered_notes number _ hbuild hreadings rfl htail
  exact {
    calls := hcalls
    unanswered := fun hnot => absurd hanswers (hnot response)
    answered := fun response' hanswers' => hanswers.eq hanswers' ▸ hnotes
    closed := by
      intro _ _ _ _
      refine ⟨.asked number own.deadline :: .sent request :: .opened response.status ::
        (readings ++ aside), after, by simp, ?_, fun note hnote => ?_⟩
      · simp only [List.forall_mem_cons, List.forall_mem_append]
        refine ⟨⟨nofun, rfl⟩, ⟨nofun, rfl⟩, ⟨nofun, rfl⟩, fun note hnote =>
          (Note.of_isReading (hread note hnote)).2.2, fun note hnote => ?_⟩
        obtain ⟨log, rfl⟩ := haside note hnote
        exact ⟨nofun, rfl⟩
      · obtain ⟨-, hopened, hreading, hclosed⟩ := Note.of_isAftermath (hafter note hnote)
        exact ⟨hclosed, hopened, hreading⟩
    dropped := fun hcut => absurd rfl (hcut result) }

end Orderly

namespace Retrier

variable {r : Retrier} {expected : List Status} {decode : Decoder α} {number : Nat} {x : Exchange}
  {own : Context} {start : Timeline}

theorem orderly_of_goes {q : Played Note HttpFault α}
    (h : r.Goes expected decode number x own start q) :
    Orderly x number own start (q.notes.map (·.2)) q.ending := by
  cases h with
  | @unbuilt fault hbuild =>
    have hnot : ∀ response, ¬ x.Answers own start response := by
      rintro response ⟨request, hbuilt, -⟩
      exact nomatch hbuild.symm.trans hbuilt
    simpa [hbuild, Except.toOption] using Orderly.of_unanswered hnot (.finished (.error fault))
  | @failed request fault hbuild hsend =>
    have hnot : ∀ response, ¬ x.Answers own start response :=
      fun response hanswers => nomatch hsend.symm.trans (hanswers.ending_send hbuild)
    simpa [hbuild, Except.toOption] using
      Orderly.of_unanswered hnot (.finished (.error (.transport fault)))
  | @unanswered request cut hbuild hsend =>
    have hnot : ∀ response, ¬ x.Answers own start response := fun response hanswers =>
      Ending.without_ne_finished cut _ (hsend.symm.trans (hanswers.ending_send hbuild))
    simpa [hbuild, Except.toOption] using Orderly.of_unanswered hnot (.without cut)
  | @unread request response answered p cut hbuild hsend hanswered hp hread =>
    have hreadings : p.notes.map (·.2) <+: Part.readings response.body :=
      hp ▸ Intake.prefix_notes_read _ _ _ _
    simpa using Orderly.of_dropped number hbuild ⟨request, hbuild, hsend⟩ hreadings cut
  | @read request response answered p read hbuild hsend hanswered hp hread =>
    have hreadings : p.notes.map (·.2) <+: Part.readings response.body :=
      hp ▸ Intake.prefix_notes_read _ _ _ _
    obtain ⟨aside, after, hnotes, haside, hafter⟩ := r.notes_conclusion expected decode response read
    have hclosed := Orderly.of_closed number hbuild ⟨request, hbuild, hsend⟩ hreadings
      haside hafter (r.conclusion expected decode response read).2
    rw [← hnotes] at hclosed
    simpa [Function.comp_def] using hclosed

/-- In every run, whatever is built, answered and read, each attempt calls the builder and, if a
request was built, the transport once, and reads only the body of its own response; if it runs to
completion, it closes that once, after all reading and before the decoder runs. A body that no
attempt closed was dropped with its attempt: where a request is built or sent, a decoder runs or the
policy is at work, no body is held, and neither is one when the run returns. -/
theorem body_closed_or_dropped (r : Retrier) (ctx : Context) (expected : List Status)
    (decode : Decoder α) (exchanges : List Exchange) (l : Timeline) (ws : Words) :
    let run := r.run ctx expected decode exchanges l ws
    (∀ start number own err, ⟨start, .invoked number own err⟩ ∈ run.journal →
      ∃ i x, number = i + 1 ∧ exchanges[i]? = some x ∧
        Orderly x number own start (Entry.pick Event.note? (Entry.during number run.journal))
          (r.played expected decode number x own start).ending) ∧
    (∀ i e, run.journal[i]? = some e →
      ∀ want ∈ wants e.event, heldFrom false (run.journal.take i) = want) ∧
    ∀ o, run.status = .returned o → heldFrom false run.journal = false := by
  intro run
  obtain ⟨b, hholds, hreturned⟩ :=
    holds_run (r.careful_attempts expected decode exchanges) r.policy ctx l ws
  refine ⟨fun start number own err hinvoked => ?_, fun i e hi want hwant => ?_, fun o ho => ?_⟩
  · obtain ⟨i, x, hnumber, hx, hnotes, -⟩ := exists_exchange hinvoked
    refine ⟨i, x, hnumber, hx, ?_⟩
    rw [hnotes]
    exact orderly_of_goes (r.goes_played expected decode number x own start)
  · obtain ⟨hlt, he⟩ := List.getElem?_eq_some_iff.mp hi
    have hjournal : run.journal = run.journal.take i ++ e :: run.journal.drop (i + 1) := by
      rw [← he, ← List.drop_eq_getElem_cons hlt, List.take_append_drop]
    have hsplit : Holds false (run.journal.take i ++ e :: run.journal.drop (i + 1)) b :=
      hjournal ▸ hholds
    exact hsplit.wanted want hwant
  · exact hholds.heldFrom_eq.trans (hreturned o ho)

/-- A body breaks and is closed all the same; the attempt with the next one is cut off, which drops
it; the third is read and closed. When the last request is sent, no body is held. -/
theorem body_closed_or_dropped_thrice :
    let brief := thrice 4 (some (Duration.ofMillis 5))
    let size : Decoder Nat := fun _ body => .ok body.length
    let hanging : Exchange := .serving ⟨200⟩ .empty [.chunk [2], .hang]
    let exchanges := [.serving ⟨503⟩ .empty [.chunk [1], .broken (.io (.plain .other))], hanging,
      .serving ⟨200⟩ .empty [.chunk [3, 3]]]
    let run := brief.run ⟨.root 0, none⟩ [⟨200⟩] size exchanges {} []
    let request : Request := ⟨"GET", "http://host/", .empty, []⟩
    let own : Context := ⟨⟨[1, 0]⟩, some 205000000⟩
    let start : Timeline := { now := 200000000, cancelled := [⟨[0, 0]⟩], issued := 2 }
    run.status = .returned (.success 2 3) ∧
      Orderly hanging 2 own start
        [.asked 2 (some 205000000), .sent request, .opened ⟨200⟩, .chunk [2]]
        (brief.played [⟨200⟩] size 2 hanging own start).ending ∧
      ((run.journal[25]?.bind fun e => e.event.note?) = some (.sent request) ∧
        heldFrom false (run.journal.take 25) = false) ∧
      heldFrom false run.journal = false := by
  intro brief size hanging exchanges run request own start
  obtain ⟨hattempts, hwants, hreturned⟩ := body_closed_or_dropped brief ⟨.root 0, none⟩ [⟨200⟩] size
    exchanges {} []
  have hstatus : run.status = .returned (.success 2 3) := by
    decide +kernel
  have hsent : (run.journal[25]?.bind fun e => e.event.note?) = some (.sent request) := by
    decide +kernel
  have hinvoked : run.journal[14]? = some ⟨start, .invoked 2 own none⟩ := by
    decide +kernel
  have hnotes : Entry.pick Event.note? (Entry.during 2 run.journal) =
      [.asked 2 (some 205000000), .sent request, .opened ⟨200⟩, .chunk [2]] := by
    decide +kernel
  obtain ⟨i, x, hnumber, hx, horderly⟩ := hattempts _ _ _ _ (List.mem_of_getElem? hinvoked)
  obtain rfl : i = 1 := by omega
  obtain rfl := Option.some.inj hx
  obtain ⟨e, he, hnote⟩ := Option.bind_eq_some_iff.mp hsent
  refine ⟨hstatus, hnotes ▸ horderly, ⟨hsent, ?_⟩, hreturned _ hstatus⟩
  have hevent : e.event = .noted (.sent request) := Event.eq_noted hnote
  exact hwants 25 e he false (by rw [hevent]; rfl)

end Retrier

end Retry.Http
