import Retry.Proofs.Http.Lifecycle

namespace Retry.Http

theorem accepts_iff {expected : List Status} {status : Status} :
    accepts expected status = true ↔ expected = [] ∨ status ∈ expected := by
  simp [accepts]

namespace Retrier

variable {α : Type}

/-- What can become of an accepted response in an attempt that is at `line` at its end, with what the
decoder was given for it. -/
inductive Takes (r : Retrier) (decode : Decoder α) (own : Context) (response : Response)
    (line : Timeline) : Ending HttpFault α → List (Headers × Bytes) → Prop where
  | tooLarge (hover : r.maxBytes < (Part.content response.body).length) :
      Takes r decode own response line (.finished (.error (.decode (.tooLarge r.maxBytes)))) []
  | broken {fault : Fault} (hwithin : (Part.content response.body).length ≤ r.maxBytes)
      (hclose : Part.close response.body = .broken fault) :
      Takes r decode own response line (.finished (.error (.transport fault))) []
  | decoded (hwithin : (Part.content response.body).length ≤ r.maxBytes)
      (hclose : Part.close response.body = .complete) :
      Takes r decode own response line
        (.finished ((decode response.headers (Part.content response.body)).mapError .decode))
        [(response.headers, Part.content response.body)]
  | cutOff {reason : Reason} (hdone : own.err line = some reason) :
      Takes r decode own response line (.cutOff reason) []
  | never (hwithin : (Part.content response.body).length ≤ r.maxBytes)
      (hclose : Part.close response.body = .never) : Takes r decode own response line .stuck []

variable {r : Retrier} {expected : List Status} {decode : Decoder α} {number : Nat} {x : Exchange}
  {own : Context} {start : Timeline} {response : Response} {q : Played Note HttpFault α}

/-- What the decoder was given, as the notes of an attempt tell. -/
def decodings (q : Played Note HttpFault α) : List (Headers × Bytes) :=
  (q.notes.map (·.2)).filterMap Note.decoding?

theorem decodings_eq_nil (h : ∀ note ∈ q.notes, note.2.decoding? = none) : decodings q = [] := by
  refine List.filterMap_eq_nil_iff.mpr fun what hwhat => ?_
  obtain ⟨note, hnote, rfl⟩ := List.mem_map.mp hwhat
  exact h note hnote

theorem decodings_read {ending : Ending HttpFault α} {notes : List (Timeline × Note)}
    {line : Timeline} (h : ∀ note ∈ notes, note.2.decoding? = none) (concluding : List Note) :
    decodings ⟨ending, notes ++ concluding.map (line, ·), line⟩ =
      concluding.filterMap Note.decoding? := by
  have hnotes : decodings (⟨ending, notes, line⟩ : Played Note HttpFault α) = [] :=
    decodings_eq_nil h
  rw [decodings] at hnotes ⊢
  rw [List.map_append, List.filterMap_append, hnotes, List.nil_append, List.map_map]
  exact congrArg _ (List.map_id _)

theorem Responds.takes (h : r.Responds expected decode own response q)
    (haccepted : accepts expected response.status = true) :
    r.Takes decode own response q.line q.ending (decodings q) := by
  cases h with
  | cutOff hnotes hdone =>
    rw [decodings_eq_nil hnotes]
    exact .cutOff hdone
  | never hnotes hwithin hclose =>
    rw [decodings_eq_nil hnotes]
    exact .never hwithin hclose
  | read hnotes hreads =>
    rw [decodings_read hnotes]
    simp only [conclusion, haccepted, if_true]
    cases hreads with
    | tooLong hover => exact .tooLarge hover
    | whole hwithin hclose => exact .decoded hwithin hclose
    | broken hwithin hclose => exact .broken hwithin hclose

/-- The decoder is given nothing but the whole of a body. -/
theorem Takes.whole_of_mem {line : Timeline} {ending : Ending HttpFault α}
    {given : List (Headers × Bytes)} (h : r.Takes decode own response line ending given)
    {headers : Headers} {body : Bytes} (hmem : (headers, body) ∈ given) :
    headers = response.headers ∧ body = Part.content response.body ∧ body.length ≤ r.maxBytes ∧
      Part.close response.body = .complete := by
  cases h with
  | tooLarge | broken | cutOff | never => cases hmem
  | decoded hwithin hclose =>
    obtain ⟨rfl, rfl⟩ := Prod.mk.inj (List.mem_singleton.mp hmem)
    exact ⟨rfl, rfl, hwithin, hclose⟩

/-- A rejected response is not decoded. -/
theorem Responds.decodings_eq_nil (h : r.Responds expected decode own response q)
    (hrejected : accepts expected response.status = false) : decodings q = [] := by
  cases h with
  | cutOff hnotes hdone => exact Retrier.decodings_eq_nil hnotes
  | never hnotes hwithin hclose => exact Retrier.decodings_eq_nil hnotes
  | @read read notes line hnotes hreads =>
    rw [decodings_read hnotes]
    simp only [conclusion, hrejected, Bool.false_eq_true, if_false, rejecting, drainFailed, fellBack]
    cases read <;> cases response.status.listed? <;> rfl

/-- In every run, an attempt that gets an accepted response fails with that the body is too large, if
it is, wherever the body would have broken; else it fails with what broke the body, if something
did; else the decoder is asked once, with the headers and the whole body, and its result is that of
the attempt. It comes to none of these only if it is cut off, or if the body never ends. Nothing else
is ever given to the decoder. -/
theorem accepted_whole_or_not_at_all (r : Retrier) (ctx : Context) (expected : List Status)
    (decode : Decoder α) (exchanges : List Exchange) (l : Timeline) (ws : Words) :
    let run := r.run ctx expected decode exchanges l ws
    (∀ start number own err, ⟨start, .invoked number own err⟩ ∈ run.journal →
      ∃ i x, number = i + 1 ∧ exchanges[i]? = some x ∧
        ∀ response, x.Answers own start response → (expected = [] ∨ response.status ∈ expected) →
          let q := r.played expected decode number x own start
          r.Takes decode own response q.line q.ending
              ((Entry.pick Event.note? (Entry.during number run.journal)).filterMap
                Note.decoding?) ∧
            Entry.pick Event.result? (Entry.during number run.journal) =
              (Policy.resultOf q.ending).toList) ∧
    ∀ line headers body, ⟨line, .noted (.decoded headers body)⟩ ∈ run.journal →
      ∃ (i : Nat) (x : Exchange) (own : Context) (start : Timeline) (response : Response),
        exchanges[i]? = some x ∧ x.Answers own start response ∧
        (expected = [] ∨ response.status ∈ expected) ∧ headers = response.headers ∧
        body = Part.content response.body ∧ body.length ≤ r.maxBytes ∧
        Part.close response.body = .complete := by
  intro run
  refine ⟨fun start number own err hinvoked => ?_, fun line headers body hnoted => ?_⟩
  · obtain ⟨i, x, hnumber, hx, hnotes, hresult⟩ := exists_exchange hinvoked
    refine ⟨i, x, hnumber, hx, fun response hanswers haccepted => ?_⟩
    have hresponds : r.Responds expected decode own response
      (r.played expected decode number x own start) := responds_played hanswers
    have htakes := hresponds.takes (accepts_iff.mpr haccepted)
    rw [decodings, ← hnotes] at htakes
    exact ⟨htakes, hresult⟩
  · obtain ⟨i, x, own, start, err, hinvoked, hx, hnote⟩ := exists_exchange_of_noted hnoted
    have hgiven : (headers, body) ∈ decodings (r.played expected decode (i + 1) x own start) :=
      List.mem_filterMap.mpr ⟨_, List.mem_map_of_mem hnote, rfl⟩
    obtain ⟨response, hanswers⟩ : ∃ response, x.Answers own start response := by
      have horderly := orderly_of_goes (r.goes_played expected decode (i + 1) x own start)
      by_contra hnone
      have hnot := horderly.unanswered (not_exists.mp hnone) _ (List.mem_map_of_mem hnote)
      cases hnot
    have hresponds : r.Responds expected decode own response
      (r.played expected decode (i + 1) x own start) := responds_played hanswers
    cases haccepted : accepts expected response.status with
    | false =>
      rw [hresponds.decodings_eq_nil haccepted] at hgiven
      cases hgiven
    | true =>
      exact ⟨i, x, own, start, response, hx, hanswers, accepts_iff.mp haccepted,
        (hresponds.takes haccepted).whole_of_mem hgiven⟩

/-- Of three bodies, with four bytes allowed, the first has five and is broken behind them, the second
is broken within, and the third has four: that one is decoded. -/
theorem accepted_whole_or_not_at_all_of_four :
    let four := thrice 4 none
    let size : Decoder Nat := fun _ body => .ok body.length
    let fault : Fault := .io (.plain .other)
    let long : Response := ⟨⟨200⟩, .empty, [.chunk [1, 2, 3], .chunk [4, 5], .broken fault]⟩
    let short : Response := ⟨⟨200⟩, .empty, [.chunk [1], .chunk [], .broken fault]⟩
    let whole : Response := ⟨⟨200⟩, .empty, [.chunk [1, 2], .chunk [], .chunk [3, 4]]⟩
    let serving := fun response : Response =>
      Exchange.serving response.status response.headers response.body
    let ctx : Context := ⟨.root 0, none⟩
    let run := four.run ctx [] size [serving long, serving short, serving whole] {} []
    let first := four.played [] size 1 (serving long) ctx {}
    let third := four.played [] size 3 (serving whole) ctx { now := 400000000 }
    run.status = .returned (.success 4 3) ∧
      (four.Takes size ctx long first.line first.ending [] ∧
        four.maxBytes < (Part.content long.body).length) ∧
      four.Takes size ctx whole third.line third.ending [(.empty, [1, 2, 3, 4])] ∧
      (Part.content whole.body).length = four.maxBytes := by
  intro four size fault long short whole serving ctx run first third
  obtain ⟨hattempts, -⟩ := accepted_whole_or_not_at_all four ctx [] size
    [serving long, serving short, serving whole] {} []
  have hstatus : run.status = .returned (.success 4 3) := by
    decide +kernel
  have hfirst : run.journal[0]? = some ⟨{}, .invoked 1 ctx none⟩ := by
    decide +kernel
  have hthird : run.journal[23]? = some ⟨{ now := 400000000 }, .invoked 3 ctx none⟩ := by
    decide +kernel
  have hnone : (Entry.pick Event.note? (Entry.during 1 run.journal)).filterMap Note.decoding? =
      [] := by
    decide +kernel
  have hone : (Entry.pick Event.note? (Entry.during 3 run.journal)).filterMap Note.decoding? =
      [(.empty, [1, 2, 3, 4])] := by
    decide +kernel
  refine ⟨hstatus, ⟨?_, by decide⟩, ?_, by decide⟩
  · obtain ⟨i, x, hnumber, hx, htakes⟩ := hattempts _ _ _ _ (List.mem_of_getElem? hfirst)
    obtain rfl : i = 0 := by omega
    obtain rfl := Option.some.inj hx
    exact hnone ▸ (htakes long (Exchange.answers_serving _ _ _ _ _) (Or.inl rfl)).1
  · obtain ⟨i, x, hnumber, hx, htakes⟩ := hattempts _ _ _ _ (List.mem_of_getElem? hthird)
    obtain rfl : i = 2 := by omega
    obtain rfl := Option.some.inj hx
    exact hone ▸ (htakes whole (Exchange.answers_serving _ _ _ _ _) (Or.inl rfl)).1

end Retrier

end Retry.Http
