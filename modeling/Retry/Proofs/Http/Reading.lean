import Retry.Http.Body
import Retry.Proofs.Sequence

namespace Retry.Http

/-- How a body ends, once all its chunks have been read. -/
inductive Close where
  | complete
  | broken (fault : Fault)
  /-- What would come next never comes. -/
  | never

namespace Part

/-- The bytes of a body, up to its end or the first fault. -/
def content : List Part → Bytes
  | [] => []
  | .chunk data :: parts => data ++ content parts
  | .pause _ :: parts => content parts
  | .broken _ :: _ => []
  | .hang :: _ => []

def close : List Part → Close
  | [] => .complete
  | .chunk _ :: parts => close parts
  | .pause _ :: parts => close parts
  | .broken fault :: _ => .broken fault
  | .hang :: _ => .never

/-- What one who reads a body all through notes of it. -/
def readings : List Part → List Note
  | [] => [.ended]
  | .chunk data :: parts => .chunk data :: readings parts
  | .pause _ :: parts => readings parts
  | .broken _ :: _ => [.broken]
  | .hang :: _ => []

end Part

namespace Note

/-- Whether a note tells of something that a body gave. -/
def isReading : Note → Bool
  | chunk _ | ended | broken => true
  | _ => false

theorem isReading_of_mem_readings {body : List Part} {note : Note} (h : note ∈ Part.readings body) :
    note.isReading = true := by
  induction body with
  | nil =>
    obtain rfl := List.mem_singleton.mp h
    rfl
  | cons part parts ih =>
    cases part with
    | chunk data =>
      rcases List.mem_cons.mp h with rfl | hlater
      · rfl
      · exact ih hlater
    | pause length => exact ih h
    | broken fault =>
      obtain rfl := List.mem_singleton.mp h
      rfl
    | hang => cases h

theorem isReading_of_prefix {body : List Part} {notes : List Note}
    (h : notes <+: Part.readings body) : ∀ note ∈ notes, note.isReading = true :=
  fun _ hnote => isReading_of_mem_readings (h.subset hnote)

end Note

namespace Intake

/-- What reading comes to, of a body with these bytes that ends in this way. -/
inductive Reads (limit : Nat) (bytes : Bytes) (close : Close) :
    Option (Except Fault Intake) → Prop where
  | tooLong (hover : limit < bytes.length) :
      Reads limit bytes close (some (.ok ⟨bytes.take limit, true⟩))
  | whole (hwithin : bytes.length ≤ limit) (hclose : close = .complete) :
      Reads limit bytes close (some (.ok ⟨bytes, false⟩))
  | broken {fault : Fault} (hwithin : bytes.length ≤ limit) (hclose : close = .broken fault) :
      Reads limit bytes close (some (.error fault))
  | never (hwithin : bytes.length ≤ limit) (hclose : close = .never) : Reads limit bytes close none

/-- The bytes of a body and its end leave one thing for reading to come to. -/
theorem Reads.eq {limit : Nat} {bytes : Bytes} {close : Close} {r r' : Option (Except Fault Intake)}
    (h : Reads limit bytes close r) (h' : Reads limit bytes close r') : r = r' := by
  cases h with
  | tooLong hover =>
    cases h' with
    | tooLong => rfl
    | whole hwithin | broken hwithin | never hwithin => omega
  | whole hwithin hclose =>
    cases h' with
    | tooLong hover => omega
    | whole => rfl
    | broken _ hclose' | never _ hclose' => cases hclose.symm.trans hclose'
  | broken hwithin hclose =>
    cases h' with
    | tooLong hover => omega
    | broken _ hclose' =>
      obtain rfl := Close.broken.inj (hclose.symm.trans hclose')
      rfl
    | whole _ hclose' | never _ hclose' => cases hclose.symm.trans hclose'
  | never hwithin hclose =>
    cases h' with
    | tooLong hover => omega
    | never => rfl
    | whole _ hclose' | broken _ hclose' => cases hclose.symm.trans hclose'

/-- How a body is read on where `known` is held, which is never more than the limit. -/
inductive Reading (limit : Nat) : Bytes → List Part → Prop where
  | ended {known : Bytes} (hknown : known.length ≤ limit) : Reading limit known []
  | tooLong {known data : Bytes} {parts : List Part} (hknown : known.length ≤ limit)
      (hover : limit - known.length < data.length) : Reading limit known (.chunk data :: parts)
  | within {known data : Bytes} {parts : List Part} (hknown : known.length ≤ limit)
      (hroom : ¬ limit - known.length < data.length) (h : Reading limit (known ++ data) parts) :
      Reading limit known (.chunk data :: parts)
  | pause {known : Bytes} {length : Nat} {parts : List Part} (h : Reading limit known parts) :
      Reading limit known (.pause length :: parts)
  | broken {known : Bytes} {fault : Fault} {parts : List Part} (hknown : known.length ≤ limit) :
      Reading limit known (.broken fault :: parts)
  | hang {known : Bytes} {parts : List Part} (hknown : known.length ≤ limit) :
      Reading limit known (.hang :: parts)

theorem reading {limit : Nat} {known : Bytes} (hknown : known.length ≤ limit)
    (parts : List Part) : Reading limit known parts := by
  induction parts generalizing known with
  | nil => exact .ended hknown
  | cons part parts ih =>
    cases part with
    | chunk data =>
      by_cases hover : limit - known.length < data.length
      · exact .tooLong hknown hover
      · have hmore : (known ++ data).length ≤ limit := by
          rw [List.length_append]
          omega
        exact .within hknown hover (ih hmore)
    | pause length => exact .pause (ih hknown)
    | broken fault => exact .broken hknown
    | hang => exact .hang hknown

theorem reading_body (limit : Nat) (body : List Part) : Reading limit [] body :=
  reading (Nat.zero_le limit) body

theorem readFrom_tooLong {limit : Nat} {known data : Bytes}
    (hover : limit - known.length < data.length) (parts : List Part) :
    readFrom limit known (.chunk data :: parts) =
      .note (.chunk data) (.succeed ⟨known ++ data.take (limit - known.length), true⟩) := by
  simp only [readFrom, hover, if_true]

theorem readFrom_within {limit : Nat} {known data : Bytes}
    (hroom : ¬ limit - known.length < data.length) (parts : List Part) :
    readFrom limit known (.chunk data :: parts) =
      .note (.chunk data) (readFrom limit (known ++ data) parts) := by
  simp only [readFrom, hroom, if_false]

/-- What is known of a body that runs over the limit with its next chunk. -/
theorem take_known {limit : Nat} {known data : Bytes} (hknown : known.length ≤ limit)
    (hover : limit - known.length < data.length) (later : Bytes) :
    (known ++ (data ++ later)).take limit = known ++ data.take (limit - known.length) := by
  have hkept : known.take limit = known := List.take_of_length_le hknown
  rw [List.take_append, hkept, List.take_append_of_le_length (Nat.le_of_lt hover)]

theorem reads_readFrom {limit : Nat} {known : Bytes} {parts : List Part}
    (h : Reading limit known parts) (l : Timeline) :
    Reads limit (known ++ Part.content parts) (Part.close parts)
      (((readFrom limit known parts).alone l).map (·.1)) := by
  induction h generalizing l with
  | ended hknown =>
    rw [Part.content, List.append_nil]
    exact .whole hknown rfl
  | @tooLong known data parts hknown hover =>
    have hlength : limit < (known ++ (data ++ Part.content parts)).length := by
      simp only [List.length_append]
      omega
    rw [readFrom_tooLong hover, Part.content, Part.close]
    have hreads : Reads limit _ (Part.close parts) _ := .tooLong hlength
    rw [take_known hknown hover] at hreads
    exact hreads
  | within hknown hroom h ih =>
    rw [readFrom_within hroom, Part.content, Part.close, ← List.append_assoc]
    exact ih l
  | pause h ih => exact ih _
  | broken hknown =>
    rw [Part.content, List.append_nil]
    exact .broken hknown rfl
  | hang hknown =>
    rw [Part.content, List.append_nil]
    exact .never hknown rfl

theorem reads_read (limit : Nat) (body : List Part) (l : Timeline) :
    Reads limit (Part.content body) (Part.close body) (((read limit body).alone l).map (·.1)) :=
  reads_readFrom (reading_body limit body) l

variable {limit : Nat} {body : List Part} {ctx : Context} {l : Timeline}

theorem reads_of_finished {r : Except Fault Intake}
    (h : ((read limit body).play ctx l).ending = .finished r) :
    Reads limit (Part.content body) (Part.close body) (some r) := by
  have hreads := reads_read limit body l
  rw [Task.alone_of_finished h] at hreads
  exact hreads

theorem reads_of_stuck (h : ((read limit body).play ctx l).ending = .stuck) :
    Reads limit (Part.content body) (Part.close body) none := by
  have hreads := reads_read limit body l
  rw [Task.alone_of_stuck h] at hreads
  exact hreads

/-- What is noted of a body is what the body gives, from its start on. -/
theorem prefix_notes_readFrom {known : Bytes} {parts : List Part} (h : Reading limit known parts)
    (ctx : Context) (l : Timeline) :
    ((readFrom limit known parts).play ctx l).notes.map (·.2) <+: Part.readings parts := by
  induction h generalizing l with
  | ended hknown => exact List.prefix_refl _
  | tooLong hknown hover =>
    rw [readFrom_tooLong hover]
    exact List.prefix_append _ _
  | within hknown hroom h ih =>
    rw [readFrom_within hroom]
    exact (List.prefix_cons_inj _).mpr (ih l)
  | @pause known length parts h ih =>
    simp only [readFrom, Task.play_sleep, Part.readings]
    rcases Played.await_cases ctx (some (Duration.tick (l.now + length))) l
      (fun line => (readFrom limit known parts).play ctx line) with ⟨cut, line, hcut⟩ | ⟨line, hon⟩
    · rw [hcut]
      exact List.nil_prefix
    · rw [hon]
      exact ih line
  | broken hknown => exact List.prefix_refl _
  | hang hknown =>
    have hnone : ((Task.hang : Task Note Fault Intake).play ctx l).notes = [] := by
      rw [Task.play_hang ctx l fun line => ⟨.stuck, [], line⟩]
      rcases Played.await_cases ctx none l fun line =>
        (⟨.stuck, [], line⟩ : Played Note Fault Intake) with ⟨cut, line, hcut⟩ | ⟨line, hon⟩
      · rw [hcut]
      · rw [hon]
    simp only [readFrom, hnone]
    exact List.nil_prefix

theorem prefix_notes_read (limit : Nat) (body : List Part) (ctx : Context) (l : Timeline) :
    ((read limit body).play ctx l).notes.map (·.2) <+: Part.readings body :=
  prefix_notes_readFrom (reading_body limit body) ctx l

theorem isReading_of_mem_notes {line : Timeline} {note : Note}
    (h : (line, note) ∈ ((read limit body).play ctx l).notes) : note.isReading = true :=
  Note.isReading_of_prefix (prefix_notes_read limit body ctx l) note
    (List.mem_map_of_mem (f := (·.2)) h)

end Intake

end Retry.Http
