import Retry.Proofs.Http.Attempt

namespace Retry.Http

variable {α ε : Type}

/-- Whether a body is held behind an event: a response brings one; it is given back when it is
closed, and at the latest when its attempt ends, which drops what it still holds. -/
def heldAfter (held : Bool) : Event Note ε α → Bool
  | .noted (.opened _) => true
  | .noted .closed | .ended _ => false
  | _ => held

def heldFrom (held : Bool) (journal : List (Entry Note ε α)) : Bool :=
  journal.foldl (fun held e => heldAfter held e.event) held

/-- Whether a body has to be held before an event, or must not be. Where it is read and closed there
has to be one; the log of a body that broke may be written before it is closed, and an attempt may
end with a body or without. -/
def wants : Event Note ε α → Option Bool
  | .noted (.chunk _) | .noted .ended | .noted .broken | .noted .closed => some true
  | .noted (.logged _) | .ended _ => none
  | _ => some false

/-- Entries that leave a body held, or not, where one was or was not, and each of which finds what it
wants. -/
inductive Holds : Bool → List (Entry Note ε α) → Bool → Prop where
  | nil {b : Bool} : Holds b [] b
  | cons {b b' : Bool} {e : Entry Note ε α} {rest : List (Entry Note ε α)}
      (hwants : ∀ want ∈ wants e.event, b = want) (h : Holds (heldAfter b e.event) rest b') :
      Holds b (e :: rest) b'

namespace Holds

variable {b b' b'' : Bool} {j k : List (Entry Note ε α)}

@[simp] theorem nil_iff : Holds b ([] : List (Entry Note ε α)) b' ↔ b = b' := by
  constructor
  · intro h
    cases h with
    | nil => rfl
  · rintro rfl
    exact .nil

@[simp] theorem cons_iff {e : Entry Note ε α} : Holds b (e :: j) b' ↔
    (∀ want ∈ wants e.event, b = want) ∧ Holds (heldAfter b e.event) j b' := by
  constructor
  · intro h
    cases h with
    | cons hwants h => exact ⟨hwants, h⟩
  · rintro ⟨hwants, h⟩
    exact .cons hwants h

theorem append (h : Holds b j b') (h' : Holds b' k b'') : Holds b (j ++ k) b'' := by
  induction h with
  | nil => exact h'
  | cons hwants _ ih => exact .cons hwants (ih h')

theorem heldFrom_eq (h : Holds b j b') : heldFrom b j = b' := by
  induction h with
  | nil => rfl
  | cons _ _ ih => exact ih

/-- Every entry finds what it wants. -/
theorem wanted {e : Entry Note ε α} (h : Holds b (j ++ e :: k) b') :
    ∀ want ∈ wants e.event, heldFrom b j = want := by
  induction j generalizing b with
  | nil =>
    cases h with
    | cons hwants h => exact hwants
  | cons x j ih =>
    cases h with
    | cons hwants h => exact ih h

theorem of_forall (hwants : ∀ e ∈ j, ∀ want ∈ wants e.event, b = want)
    (hkeeps : ∀ e ∈ j, heldAfter b e.event = b) : Holds b j b := by
  induction j with
  | nil => exact .nil
  | cons e j ih =>
    refine .cons (hwants e List.mem_cons_self) ?_
    rw [hkeeps e List.mem_cons_self]
    exact ih (fun x hx => hwants x (List.mem_cons_of_mem e hx)) fun x hx =>
      hkeeps x (List.mem_cons_of_mem e hx)

/-- What no attempt leaves wants no body, and brings none. -/
theorem of_outside (h : ∀ e ∈ j, e.event.Outside) : Holds false j false := by
  have hboth : ∀ x : Event Note ε α, x.Outside →
      (∀ want ∈ wants x, false = want) ∧ heldAfter false x = false := by
    intro x hx
    cases x with
    | noted | invoked | ended =>
      simp [Event.Outside, Event.invocation?, Event.note?, Event.result?] at hx
    | asked | judged | hinted | slept | logged => simp [wants, heldAfter]
  exact of_forall (fun e he => (hboth _ (h e he)).1) fun e he => (hboth _ (h e he)).2

end Holds

/-- Work that, where no body was held, finds what it wants, and leaves none if it comes to an end. -/
def Careful [OfReason ε] (op : Operation Note ε α) : Prop :=
  ∀ own start, ∃ b, Holds false (Policy.entriesOf ((op own).play own start)) b ∧
    (Policy.resultOf ((op own).play own start).ending ≠ none → b = false)

section Runs

variable [OfReason ε] {p : Policy ε} {ctx : Context} {op : Operation Note ε α}
  {ops rest : List (Operation Note ε α)} {l : Timeline} {ws : Words} {s : Policy.Loop}
  {journal : List (Entry Note ε α)}

theorem Careful.holds_tried (hop : Careful op) (p : Policy ε) (ctx : Context) (s : Policy.Loop) :
    ∃ b, Holds false (p.tried ctx op s).journal b ∧
      ((p.tried ctx op s).result ≠ none → b = false) := by
  obtain ⟨b, hentries, hended⟩ := hop (p.attemptContext ctx s.line).1 (p.attemptContext ctx s.line).2
  refine ⟨b, ?_, hended⟩
  rw [Policy.tried, Policy.journal_attempt]
  exact .cons (by simp [wants]) hentries

/-- A round leaves no body held, unless its attempt never ends. -/
theorem Careful.holds_turn {r : Policy.Round Note ε α} (hop : Careful op) (h : p.Turn ctx op s r) :
    ∃ b, Holds false r.written b ∧ ((p.tried ctx op s).result ≠ none → b = false) := by
  obtain ⟨b, htried, hended⟩ := hop.holds_tried p ctx s
  have hmore : (p.tried ctx op s).result ≠ none → Holds false r.written false := by
    intro hresult
    obtain ⟨tail, hwritten, htail⟩ := h.outside
    rw [hwritten]
    rw [hended hresult] at htried
    exact htried.append (.of_outside htail)
  cases h with
  | stuck hr => exact ⟨b, htried, hended⟩
  | value hr | lost hr | stopped hr | interrupted hr | again hr =>
    exact ⟨false, hmore (by simp [hr]), fun _ => rfl⟩

theorem holds_reaches (hops : ∀ op ∈ ops, Careful op) (h : p.Reaches ctx ops l ws rest s journal) :
    Holds false journal false := by
  induction h with
  | start => exact .nil
  | @again op rest s s' journal more h hlive hround ih =>
    obtain ⟨before, rfl, -⟩ := h.tried_eq
    have hop := hops op (List.mem_append_right _ List.mem_cons_self)
    have hturn := Policy.turn_of_round hround
    obtain ⟨b, hholds, hended⟩ := hop.holds_turn hturn
    cases hturn with
    | again hr =>
      obtain rfl := hended (by simp [hr])
      exact ih.append hholds

/-- A run of careful operations finds what it wants wherever it stands, and if it returns, it holds
nothing any more. -/
theorem holds_run (hops : ∀ op ∈ ops, Careful op) (p : Policy ε) (ctx : Context) (l : Timeline)
    (ws : Words) : ∃ b,
    Holds false (p.run ctx ops l ws).journal b ∧
      ∀ o, (p.run ctx ops l ws).status = .returned o → b = false := by
  obtain ⟨rest, s, journal, r, hreach, hlast, hrun⟩ := p.exists_last ctx ops l ws
  have hbefore := holds_reaches hops hreach
  obtain ⟨before, rfl, -⟩ := hreach.tried_eq
  rw [hrun]
  simp only [Policy.Report.after]
  cases hlast with
  | abandoned hdone =>
    refine ⟨false, hbefore.append (.of_outside fun e he => ?_), fun _ _ => rfl⟩
    obtain rfl := List.mem_singleton.mp he
    exact ⟨rfl, rfl, rfl⟩
  | starved hlive => exact ⟨false, hbefore.append .nil, fun _ _ => rfl⟩
  | @stopped op rest s status more line words hlive hround =>
    have hop := hops op (List.mem_append_right _ List.mem_cons_self)
    have hturn := Policy.turn_of_round hround
    obtain ⟨b, hholds, hended⟩ := hop.holds_turn hturn
    refine ⟨b, hbefore.append hholds, fun o ho => ?_⟩
    cases hturn with
    | stuck hr => cases ho
    | value hr | lost hr | stopped hr | interrupted hr => exact hended (by simp [hr])

end Runs

namespace Retrier

variable {r : Retrier} {expected : List Status} {decode : Decoder α} {number : Nat} {x : Exchange}
  {own : Context} {start : Timeline}

/-- A body that is held is held as long as it is read. -/
theorem holds_read {limit : Nat} {body : List Part} {l : Timeline} {p : Played Note Fault Intake}
    (hp : (Intake.read limit body).play own l = p) :
    Holds true (p.notes.map fun note => (⟨note.1, .noted note.2⟩ : Entry Note ε α)) true := by
  have hboth : ∀ note : Note, note.isReading = true →
      (∀ want ∈ wants (.noted note : Event Note ε α), true = want) ∧
        heldAfter true (.noted note : Event Note ε α) = true := by
    intro note hnote
    cases note <;> simp [wants, heldAfter, Note.isReading] at hnote ⊢
  have hread : ∀ note ∈ p.notes, note.2.isReading = true := by
    rw [← hp]
    exact fun note hnote => Intake.isReading_of_mem_notes hnote
  refine .of_forall (fun e he => ?_) fun e he => ?_
  · obtain ⟨note, hnote, rfl⟩ := List.mem_map.mp he
    exact (hboth note.2 (hread note hnote)).1
  · obtain ⟨note, hnote, rfl⟩ := List.mem_map.mp he
    exact (hboth note.2 (hread note hnote)).2

/-- A request is built and sent while no body is held; then there is one. -/
theorem holds_answered {deadline : Option Nat} {request : Request} {status : Status}
    {answered : Timeline} {rest : List (Entry Note ε α)} {b : Bool} (h : Holds true rest b) :
    Holds false (⟨start, .noted (.asked number deadline)⟩ :: ⟨start, .noted (.sent request)⟩ ::
      ⟨answered, .noted (.opened status)⟩ :: rest) b := by
  simpa [wants, heldAfter] using h

/-- Whatever was read, the body is closed before anything is made of it. -/
theorem holds_conclusion (r : Retrier) (expected : List Status) (decode : Decoder α)
    (response : Response) (read : Except Fault Intake) (line : Timeline) :
    Holds true ((r.conclusion expected decode response read).1.map
      fun note => (⟨line, .noted note⟩ : Entry Note HttpFault α)) false := by
  unfold conclusion
  split
  · match read with
    | .error fault => simp [acceptance, wants, heldAfter]
    | .ok ⟨_, true⟩ => simp [acceptance, wants, heldAfter]
    | .ok ⟨body, false⟩ => simp [acceptance, wants, heldAfter]
  · cases read <;> cases hlisted : response.status.listed? <;>
      simp [rejecting, drainFailed, fellBack, hlisted, wants, heldAfter]

/-- An attempt gives back the body that it got, unless it never ends. -/
theorem careful_attempt (r : Retrier) (expected : List Status) (decode : Decoder α) (number : Nat)
    (x : Exchange) : Careful (r.attempt expected decode number x) := by
  intro own start
  have hgoes := r.goes_played expected decode number x own start
  rw [played] at hgoes
  generalize (r.attempt expected decode number x own).play own start = q at hgoes
  cases hgoes with
  | unbuilt hbuild =>
    exact ⟨false, by simp [Policy.entriesOf, Policy.resultOf, wants, heldAfter], fun _ => rfl⟩
  | failed hbuild hsend =>
    exact ⟨false, by simp [Policy.entriesOf, Policy.resultOf, wants, heldAfter], fun _ => rfl⟩
  | @unanswered _ cut hbuild hsend =>
    cases cut <;>
      exact ⟨false, by simp [Policy.entriesOf, Policy.resultOf, Ending.without, wants, heldAfter],
        fun _ => rfl⟩
  | @unread request response answered p cut hbuild hsend hanswered hp hread =>
    have hbody := holds_read (ε := HttpFault) (α := α) hp
    simp only [Policy.entriesOf, List.map_cons, List.cons_append]
    cases cut with
    | some reason =>
      refine ⟨false, ?_, fun _ => rfl⟩
      exact holds_answered (hbody.append (.cons (by simp [wants]) .nil))
    | none =>
      refine ⟨true, ?_, fun hended => absurd rfl hended⟩
      exact holds_answered (hbody.append .nil)
  | @read request response answered p read hbuild hsend hanswered hp hread =>
    have hbody := holds_read (ε := HttpFault) (α := α) hp
    have hconclusion := r.holds_conclusion expected decode response read p.line
    refine ⟨false, ?_, fun _ => rfl⟩
    simp only [Policy.entriesOf, List.map_cons, List.map_append, List.map_map, List.cons_append,
      List.append_assoc]
    exact holds_answered (hbody.append (hconclusion.append (.cons (by simp [wants]) .nil)))

/-- The attempts of a run all give back the bodies that they got. -/
theorem careful_attempts (r : Retrier) (expected : List Status) (decode : Decoder α)
    (exchanges : List Exchange) :
    ∀ op ∈ (exchanges.zipIdx 1).map fun (x, number) => r.attempt expected decode number x,
      Careful op := by
  intro op hop
  obtain ⟨⟨x, number⟩, -, rfl⟩ := List.mem_map.mp hop
  exact r.careful_attempt expected decode number x

end Retrier

end Retry.Http
