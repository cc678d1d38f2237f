import Retry.Proofs.Http.Decoding
import Retry.Proofs.Http.Rejected

namespace Retry.Http

namespace Intake

variable {ε α : Type} {limit : Nat}

/-- What goes on with a body that was read is asked about no more bytes than the limit allows. -/
theorem readFrom_andThen_congr {known : Bytes} {parts : List Part}
    (hreading : Reading limit known parts) {k k' : Except Fault Intake → Task Note ε α}
    (h : ∀ read, (∀ intake, read = .ok intake → intake.bytes.length ≤ limit) → k read = k' read) :
    (readFrom limit known parts).andThen k = (readFrom limit known parts).andThen k' := by
  induction hreading with
  | ended hknown =>
    refine congrArg (Task.note _) (h _ ?_)
    rintro intake ⟨⟩
    exact hknown
  | tooLong hknown hover =>
    rw [readFrom_tooLong hover]
    refine congrArg (Task.note _) (h _ ?_)
    rintro intake ⟨⟩
    simp only [List.length_append, List.length_take]
    omega
  | within hknown hroom hreading ih =>
    rw [readFrom_within hroom]
    exact congrArg (Task.note _) ih
  | pause hreading ih => exact congrArg (Task.sleep _) ih
  | broken hknown =>
    refine congrArg (Task.note _) (h _ ?_)
    rintro intake ⟨⟩
  | hang hknown => rfl

end Intake

namespace Retrier

variable {α : Type} {r : Retrier} {decode decode' : Decoder α}

/-- Two decoders are the same to a retrier if they agree on all bodies that it allows. -/
theorem run_congr (h : ∀ headers body, body.length ≤ r.maxBytes →
    decode headers body = decode' headers body) (ctx : Context) (expected : List Status)
    (exchanges : List Exchange) (l : Timeline) (ws : Words) :
    r.run ctx expected decode exchanges l ws = r.run ctx expected decode' exchanges l ws := by
  have haccept : ∀ response, r.accept decode response = r.accept decode' response := by
    intro response
    refine Intake.readFrom_andThen_congr (Intake.reading_body _ _) fun read hread => ?_
    match read with
    | .error fault => rfl
    | .ok ⟨_, true⟩ => rfl
    | .ok ⟨body, false⟩ =>
      have hagree := h response.headers body (hread _ rfl)
      simp only [hagree]
  have hattempt : ∀ number x, r.attempt expected decode number x =
      r.attempt expected decode' number x := by
    intro number x
    funext own
    simp only [attempt, haccept]
  unfold run
  simp only [hattempt]

/-- What a retrier that decodes JSON and XML keeps to in an attempt that is given `given` to decode
and ends so: nothing that it keeps, decodes or hands to a reader is larger than it allows, nor is a
body that gives a value, inflated or not; and a body that starts with a member, if it and the data
of that are no larger, is not too large. Inflated, a body is the data of the member that it starts
with: no reader is handed anything else of it. A build may refuse with a status of its own making,
of which nothing was read. -/
structure Bounded (r : Retrier) (readers : Readers α) (expected : List Status) (x : Exchange)
    (own : Context) (start : Timeline) (ending : Ending HttpFault α)
    (given : List (Headers × Bytes)) : Prop where
  kept : ∀ rejection, ending = .finished (.error (.status rejection)) →
    x.build own = .error (.status rejection) ∨ rejection.body.length ≤ r.maxBytes
  decoded : ∀ headers body, (headers, body) ∈ given → body.length ≤ r.maxBytes ∧
    ∀ format text, Readers.handed r.maxBytes headers body = .ok (format, text) →
      text.length ≤ r.maxBytes
  value : ∀ response v, x.Answers own start response → ending = .finished (.ok v) →
    (Part.content response.body).length ≤ r.maxBytes ∧ (IsGzip response.headers →
      ∃ data, Gzip.Holds (Part.content response.body) data ∧ data.length ≤ r.maxBytes)
  fits : ∀ response format data result, x.Answers own start response →
    (expected = [] ∨ response.status ∈ expected) →
    formatOf? ((mediaType? response.headers).getD "") = some format → IsGzip response.headers →
    Gzip.Holds (Part.content response.body) data →
    (Part.content response.body).length ≤ r.maxBytes → data.length ≤ r.maxBytes →
    ending = .finished result → (∀ limit, result ≠ .error (.decode (.tooLarge limit))) ∧
      (Part.close response.body = .complete →
        result = (readers.read format data).mapError .decode)

variable {readers : Readers α} {expected : List Status} {x : Exchange} {own : Context}
  {start line : Timeline} {response : Response} {number : Nat} {ending : Ending HttpFault α}
  {given : List (Headers × Bytes)}

theorem Bounded.of_unanswered (hnot : ∀ response, ¬ x.Answers own start response)
    (hkept : ∀ rejection, ending = .finished (.error (.status rejection)) →
      x.build own = .error (.status rejection)) :
    r.Bounded readers expected x own start ending [] where
  kept := fun rejection hending => Or.inl (hkept rejection hending)
  decoded := nofun
  value := fun response _ hanswers => absurd hanswers (hnot response)
  fits := fun response _ _ _ hanswers => absurd hanswers (hnot response)

theorem Rejects.bounded (hanswers : x.Answers own start response)
    (hrejected : accepts expected response.status = false)
    (h : r.Rejects own response line ending) :
    r.Bounded readers expected x own start ending [] where
  kept := by
    intro rejection hending
    right
    cases h with
    | drained hread =>
      obtain rfl := HttpFault.status.inj (Except.error.inj (Ending.finished.inj hending))
      rw [List.length_take]
      omega
    | broken hwithin hclose =>
      obtain rfl := HttpFault.status.inj (Except.error.inj (Ending.finished.inj hending))
      exact Nat.zero_le _
    | cutOff hdone => cases hending
    | never hwithin hclose => cases hending
  decoded := nofun
  value := by
    intro _ v _ hending
    rw [hending] at h
    obtain ⟨body, hbody⟩ := h.exists_body
    cases hbody
  fits := by
    intro response' _ _ _ hanswers' haccepted
    obtain rfl := hanswers.eq hanswers'
    rw [accepts_iff.mpr haccepted] at hrejected
    cases hrejected

theorem Takes.bounded (hanswers : x.Answers own start response)
    (h : r.Takes (readers.decoder r.maxBytes) own response line ending given) :
    r.Bounded readers expected x own start ending given := by
  cases h with
  | tooLarge hover =>
    exact {
      kept := nofun
      decoded := nofun
      value := nofun
      fits := by
        intro response' _ _ _ hanswers' _ _ _ _ hwithin
        obtain rfl := hanswers.eq hanswers'
        omega }
  | broken hwithin hclose =>
    exact {
      kept := nofun
      decoded := nofun
      value := nofun
      fits := by
        rintro response' _ _ _ hanswers' _ _ _ _ _ _ ⟨⟩
        obtain rfl := hanswers.eq hanswers'
        refine ⟨nofun, fun hcomplete => ?_⟩
        rw [hclose] at hcomplete
        cases hcomplete }
  | decoded hwithin hclose =>
    exact {
      kept := by
        intro rejection hending
        cases hdecode : readers.decoder r.maxBytes response.headers (Part.content response.body) <;>
          simp [hdecode, Except.mapError] at hending
      decoded := by
        intro headers body hmem
        obtain ⟨rfl, rfl⟩ := Prod.mk.inj (List.mem_singleton.mp hmem)
        exact ⟨hwithin, fun format text hhanded => Readers.length_handed hhanded hwithin⟩
      value := by
        intro response' v hanswers' hending
        obtain rfl := hanswers.eq hanswers'
        refine ⟨hwithin, fun hgzip => ?_⟩
        cases hdecode : readers.decoder r.maxBytes response.headers (Part.content response.body) with
        | error fault => simp [hdecode, Except.mapError] at hending
        | ok v' => exact Readers.holds_of_decoder hgzip hdecode
      fits := by
        rintro response' format data _ hanswers' _ hformat hgzip hholds _ hdata ⟨⟩
        obtain rfl := hanswers.eq hanswers'
        have hread : readers.decoder r.maxBytes response.headers (Part.content response.body) =
            readers.read format data := by
          rw [Readers.decoder_eq, Readers.handed_of_holds hformat hgzip hholds hdata]
          rfl
        rw [hread]
        refine ⟨fun limit hlarge => ?_, fun _ => rfl⟩
        cases hvalue : readers.read format data with
        | ok v =>
          rw [hvalue] at hlarge
          cases hlarge
        | error fault =>
          rw [hvalue] at hlarge
          obtain rfl := HttpFault.decode.inj (Except.error.inj hlarge)
          exact readers.read_ne_tooLarge format data limit hvalue }
  | cutOff hdone => exact ⟨nofun, nofun, nofun, nofun⟩
  | never hwithin hclose => exact ⟨nofun, nofun, nofun, nofun⟩

/-- Every attempt keeps to the ceiling. -/
theorem bounded_played : r.Bounded readers expected x own start
    (r.played expected (readers.decoder r.maxBytes) number x own start).ending
    (decodings (r.played expected (readers.decoder r.maxBytes) number x own start)) := by
  by_cases hanswered : ∃ response, x.Answers own start response
  · obtain ⟨response, hanswers⟩ := hanswered
    have hresponds : r.Responds expected (readers.decoder r.maxBytes) own response
      (r.played expected (readers.decoder r.maxBytes) number x own start) := responds_played hanswers
    cases haccepted : accepts expected response.status with
    | true => exact (hresponds.takes haccepted).bounded hanswers
    | false =>
      rw [hresponds.decodings_eq_nil haccepted]
      exact (hresponds.rejects haccepted).bounded hanswers haccepted
  · have hnot := not_exists.mp hanswered
    have hgoes := r.goes_played expected (readers.decoder r.maxBytes) number x own start
    generalize r.played expected (readers.decoder r.maxBytes) number x own start = q at hgoes ⊢
    cases hgoes with
    | unbuilt hbuild =>
      refine .of_unanswered hnot fun rejection hending => ?_
      obtain rfl := Except.error.inj (Ending.finished.inj hending)
      exact hbuild
    | failed hbuild hsend => exact .of_unanswered hnot nofun
    | unanswered hbuild hsend =>
      exact .of_unanswered hnot fun _ hending => absurd hending (Ending.without_ne_finished _ _)
    | unread hbuild hsend => exact absurd ⟨_, hbuild, hsend⟩ (hnot _)
    | read hbuild hsend => exact absurd ⟨_, hbuild, hsend⟩ (hnot _)

/-- In every run of a retrier that decodes JSON and XML, every attempt keeps to the ceiling; and what
a reader would say of more bytes than that makes no difference to the run. -/
theorem ceiling_holds (r : Retrier) (readers : Readers α) (ctx : Context) (expected : List Status)
    (exchanges : List Exchange) (l : Timeline) (ws : Words) :
    let run := r.run ctx expected (readers.decoder r.maxBytes) exchanges l ws
    (∀ start number own err, ⟨start, .invoked number own err⟩ ∈ run.journal →
      ∃ i x, number = i + 1 ∧ exchanges[i]? = some x ∧
        let q := r.played expected (readers.decoder r.maxBytes) number x own start
        r.Bounded readers expected x own start q.ending
            ((Entry.pick Event.note? (Entry.during number run.journal)).filterMap
              Note.decoding?) ∧
          Entry.pick Event.result? (Entry.during number run.journal) =
            (Policy.resultOf q.ending).toList) ∧
    ∀ readers' : Readers α,
      (∀ format text, text.length ≤ r.maxBytes →
        readers.read format text = readers'.read format text) →
      r.run ctx expected (readers'.decoder r.maxBytes) exchanges l ws = run := by
  intro run
  refine ⟨fun start number own err hinvoked => ?_, fun readers' hagree => ?_⟩
  · obtain ⟨i, x, hnumber, hx, hnotes, hresult⟩ := exists_exchange hinvoked
    refine ⟨i, x, hnumber, hx, ?_, hresult⟩
    rw [hnotes]
    exact bounded_played
  · exact run_congr (fun headers body hbody =>
      (Readers.decoder_congr hagree hbody).symm) ctx expected exchanges l ws

private def counting : Readers Nat where
  json text := some text.length
  xml text := some text.length

/-- A gzip member of 32 digits. -/
private def digits : Bytes :=
  [31, 139, 8, 0, 0, 0, 0, 0, 0, 255, 51, 52, 196, 15, 0, 177, 88, 201, 219, 32, 0, 0, 0]

private def digitsResponse : Response where
  status := ⟨200⟩
  headers := .ofList
    [("content-type", .ofString "application/json"), ("content-encoding", .ofString "gzip")]
  body := [.chunk digits]

private def digitsExchange : Exchange :=
  .serving digitsResponse.status digitsResponse.headers digitsResponse.body

private theorem holds_digits :
    Gzip.Holds (Part.content digitsResponse.body) (List.replicate 32 49) := by
  have hcontent : Part.content digitsResponse.body = digits := List.append_nil digits
  have hunpack : Gzip.unpack 32 digits = .ok (List.replicate 32 49) := by decide +kernel
  rw [hcontent]
  exact (Gzip.holds_of_unpack hunpack).1

private theorem isGzip_digits : IsGzip digitsResponse.headers := by
  unfold IsGzip
  decide +kernel

private def digitsRun (r : Retrier) : Policy.Report Note HttpFault Nat :=
  r.run ⟨.root 0, none⟩ [] (counting.decoder r.maxBytes) [digitsExchange] {} []

private theorem exists_digits_invoked (r : Retrier) (htimeout : r.policy.attemptTimeout = none) :
    ∃ err, ⟨{}, .invoked 1 ⟨.root 0, none⟩ err⟩ ∈ (digitsRun r).journal := by
  have hown : r.policy.attemptContext ⟨.root 0, none⟩ {} = (⟨.root 0, none⟩, {}) := by
    simp only [Policy.attemptContext, htimeout]
  exact (Policy.made_iff.mpr ⟨[], _, [], .start, rfl, rfl, hown⟩).invoked

/-- The body of 23 bytes gives a value where the 32 that it holds are allowed, and none where 31
are. -/
theorem ceiling_holds_at_32 :
    Entry.pick Event.result? (Entry.during 1 (digitsRun (thrice 32 none)).journal) = [.ok 32] ∧
      ∀ v, Entry.pick Event.result? (Entry.during 1 (digitsRun (thrice 31 none)).journal) ≠
        [.ok v] := by
  have hanswers : ∀ own start, digitsExchange.Answers own start digitsResponse :=
    Exchange.answers_serving _ _ _
  have hattempt : ∀ r : Retrier, r.policy.attemptTimeout = none →
      let q := r.played [] (counting.decoder r.maxBytes) 1 digitsExchange ⟨.root 0, none⟩ {}
      (∃ given, r.Bounded counting [] digitsExchange ⟨.root 0, none⟩ {} q.ending given) ∧
        Entry.pick Event.result? (Entry.during 1 (digitsRun r).journal) =
          (Policy.resultOf q.ending).toList := by
    intro r htimeout
    obtain ⟨err, hinvoked⟩ := exists_digits_invoked r htimeout
    obtain ⟨hattempts, -⟩ := ceiling_holds r counting ⟨.root 0, none⟩ [] [digitsExchange] {} []
    obtain ⟨i, y, hnumber, hy, hbounded, hresult⟩ := hattempts _ _ _ _ hinvoked
    obtain rfl : i = 0 := by omega
    obtain rfl := Option.some.inj hy
    exact ⟨⟨_, hbounded⟩, hresult⟩
  refine ⟨?_, fun v hv => ?_⟩
  · obtain ⟨⟨given, hbounded⟩, hresult⟩ := hattempt (thrice 32 none) rfl
    obtain ⟨result, hending⟩ : ∃ result, ((thrice 32 none).played []
      (counting.decoder (thrice 32 none).maxBytes) 1 digitsExchange ⟨.root 0, none⟩ {}).ending =
        .finished result := ⟨_, rfl⟩
    have hfits := hbounded.fits _ .json _ result (hanswers _ _) (Or.inl rfl) (by decide +kernel)
      isGzip_digits holds_digits (by decide) (by decide) hending
    have hok : result = .ok 32 := hfits.2 rfl
    rw [hok] at hending
    rw [hending] at hresult
    exact hresult
  · obtain ⟨⟨given, hbounded⟩, hresult⟩ := hattempt (thrice 31 none) rfl
    obtain ⟨result, hending⟩ : ∃ result, ((thrice 31 none).played []
      (counting.decoder (thrice 31 none).maxBytes) 1 digitsExchange ⟨.root 0, none⟩ {}).ending =
        .finished result := ⟨_, rfl⟩
    have hvalue : result = .ok v := by
      have hlist := (congrArg (fun ending => (Policy.resultOf ending).toList) hending).symm.trans
        (hresult.symm.trans hv)
      exact List.singleton_inj.mp hlist
    obtain ⟨-, hinflated⟩ := hbounded.value _ v (hanswers _ _) (hvalue ▸ hending)
    obtain ⟨data, hdata, hwithin⟩ := hinflated isGzip_digits
    obtain rfl := hdata.eq holds_digits
    exact absurd hwithin (by decide)

end Retrier

end Retry.Http
