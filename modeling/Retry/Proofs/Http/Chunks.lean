import Retry.Proofs.Http.Attempt

namespace Retry.Http

namespace Intake

variable {limit : Nat}

/-- Reading on behind `known`, but where more than the limit is held when a chunk comes, so that
there is less than no room for it, this fails without a fault of the body. -/
def guardedFrom (limit : Nat) (known : Bytes) : List Part → Task Note (Option Fault) Intake
  | [] => .note .ended (.succeed ⟨known, false⟩)
  | .chunk data :: parts =>
    .note (.chunk data)
      (if known.length ≤ limit then
        let room := limit - known.length
        if room < data.length then .succeed ⟨known ++ data.take room, true⟩
        else guardedFrom limit (known ++ data) parts
      else .fail none)
  | .pause length :: parts => .sleep length (guardedFrom limit known parts)
  | .broken fault :: _ => .note .broken (.fail (some fault))
  | .hang :: _ => .hang

theorem guardedFrom_eq {known : Bytes} {parts : List Part} (h : Reading limit known parts) :
    guardedFrom limit known parts = (readFrom limit known parts).mapError some := by
  induction h with
  | ended | broken | hang => rfl
  | tooLong hknown hover =>
    rw [readFrom_tooLong hover]
    simp only [guardedFrom, hknown, hover, if_true]
    rfl
  | within hknown hroom h ih =>
    rw [readFrom_within hroom]
    simp only [guardedFrom, hknown, hroom, if_true, if_false, ih]
    rfl
  | pause h ih => exact congrArg (Task.sleep _) ih

/-- Where the parts up to some point run over the limit, those behind it are not asked for. -/
theorem readFrom_append {known : Bytes} {front : List Part} (h : Reading limit known front)
    (hover : limit < (known ++ Part.content front).length) (rest : List Part) :
    readFrom limit known (front ++ rest) = readFrom limit known front := by
  induction h with
  | ended hknown | broken hknown | hang hknown =>
    -- What is held at an end or a fault is within the limit, and no byte comes behind it.
    rw [Part.content, List.append_nil] at hover
    omega
  | tooLong hknown hlast =>
    rw [List.cons_append, readFrom_tooLong hlast, readFrom_tooLong hlast]
  | within hknown hroom h ih =>
    rw [Part.content, ← List.append_assoc] at hover
    rw [List.cons_append, readFrom_within hroom, readFrom_within hroom, ih hover]
  | pause h ih => exact congrArg (Task.sleep _) (ih hover)

theorem alone_drain {ε : Type} (limit : Nat) (body : List Part) (l : Timeline) :
    ((drain limit body : Task Note ε Bytes).alone l).map (·.1) =
      (((read limit body).alone l).map (·.1)).map fun read => .ok (Retrier.kept read) := by
  rw [drain, Task.alone_andThen]
  cases (read limit body).alone l with
  | none => rfl
  | some read =>
    obtain ⟨result, line⟩ := read
    cases result <;> rfl

/-- A body is read to the same end however it is parted. What is held never passes the limit, so
that no room is ever less than nothing. With the chunk that runs over the limit reading is done,
whatever would follow, and has as many bytes as the limit allows; else it comes to the first fault,
or to the whole body, or waits for what never comes. So the chunks and the pauses between them make
no difference, and draining keeps what was read, or nothing if the body broke. -/
theorem chunks_decide_nothing {ε : Type} (limit : Nat) (body : List Part) :
    guardedFrom limit [] body = (read limit body).mapError some ∧
    (∀ front rest, body = front ++ rest → limit < (Part.content front).length →
      read limit body = read limit front) ∧
    (∀ l, Reads limit (Part.content body) (Part.close body)
      (((read limit body).alone l).map (·.1))) ∧
    (∀ body' l l', Part.content body' = Part.content body → Part.close body' = Part.close body →
      ((read limit body').alone l').map (·.1) = ((read limit body).alone l).map (·.1) ∧
        ((drain limit body' : Task Note ε Bytes).alone l').map (·.1) =
          ((drain limit body : Task Note ε Bytes).alone l).map (·.1)) ∧
    ∀ l, ((drain limit body : Task Note ε Bytes).alone l).map (·.1) =
      (((read limit body).alone l).map (·.1)).map fun read => .ok (Retrier.kept read) := by
  have hguarded := guardedFrom_eq (reading_body limit body)
  refine ⟨hguarded, ?_, reads_read limit body, ?_, alone_drain limit body⟩
  · rintro front rest rfl hover
    exact readFrom_append (reading_body limit front) hover rest
  · intro body' l l' hcontent hclose
    have hreads := reads_read limit body' l'
    rw [hcontent, hclose] at hreads
    have hread := hreads.eq (reads_read limit body l)
    exact ⟨hread, by rw [alone_drain, alone_drain, hread]⟩

/-- Four bytes are allowed. Five in three chunks with an empty one between are read up to the fourth,
though behind them nothing ever comes, and so they are in one chunk behind a pause; exactly four are
read past an empty chunk to the fault, which leaves nothing of them when they are drained. -/
theorem chunks_decide_nothing_at_four :
    let front : List Part := [.chunk [1, 2], .chunk [], .chunk [3, 4, 5]]
    let other : List Part := [.pause 7, .chunk [1, 2, 3, 4, 5], .hang]
    let fault : Fault := .io (.plain .other)
    let four : List Part := [.chunk [1, 2, 3, 4], .chunk [], .broken fault]
    let parted : List Part := [.chunk [], .chunk [1], .chunk [2, 3, 4], .broken fault, .chunk [5]]
    (4 < (Part.content front).length ∧ read 4 (front ++ [.hang]) = read 4 front) ∧
      (Part.content other = Part.content (front ++ [.hang]) ∧
        ((read 4 other).alone {}).map (·.1) = some (.ok ⟨[1, 2, 3, 4], true⟩)) ∧
      Part.content parted = Part.content four ∧
      ((read 4 parted).alone {}).map (·.1) = some (.error fault) ∧
      ((drain 4 parted : Task Note HttpFault Bytes).alone {}).map (·.1) = some (.ok []) := by
  intro front other fault four parted
  obtain ⟨-, hstops, -, hparts, -⟩ :=
    chunks_decide_nothing (ε := HttpFault) 4 (front ++ [.hang])
  obtain ⟨-, -, -, hfault, hdrain⟩ := chunks_decide_nothing (ε := HttpFault) 4 four
  have hover : 4 < (Part.content front).length := by decide
  refine ⟨⟨hover, hstops front _ rfl hover⟩, ⟨rfl, ?_⟩, rfl, ?_, ?_⟩
  · exact (hparts other {} {} rfl rfl).1
  · exact (hfault parted {} {} rfl rfl).1
  · exact (hfault parted {} {} rfl rfl).2.trans (hdrain {})

end Intake

end Retry.Http
