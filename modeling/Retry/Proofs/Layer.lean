import Retry.Layer
import Retry.Proofs.Isolation
import Retry.Proofs.Muted

namespace Retry

/-- Without its notes, serving is waiting for the clone and then giving it the request. -/
theorem Clone.muted_serve {ι ρ α : Type} (c : Clone ι ρ α) (request : ρ) :
    (c.serve request).muted = c.ready.bind fun _ => c.call request := by
  unfold serve await Task.bind
  rw [Task.andThen_assoc, Task.muted_andThen, Task.muted_quiet]
  congr 1
  funext r
  cases r with
  | error e => rfl
  | ok => exact Task.muted_quiet _

namespace Layer

variable {ι ε ρ α : Type}

/-- How an attempt with the clone `c` goes: it waits for the clone, ends with the error of that if
there is one, and else gives the clone the request and ends as the clone does. -/
inductive Serves (layer : Layer ι ε) (request : ρ) (c : Clone ι ρ α) (own : Context)
    (start : Timeline) : Played (Served ι ρ) ε α → Prop where
  | waiting {cut : Option Reason} (hready : (c.ready.play own start).ending = .without cut) :
      Serves layer request c own start ⟨.without cut, [], (c.ready.play own start).line⟩
  | unready {e : ι} {line : Timeline}
      (hready : (c.ready.play own start).ending = .finished (.error e))
      (hline : (c.ready.play own start).line = line) :
      Serves layer request c own start
        ⟨.finished (.error (layer.convert e)), [(line, .settled (.error e))], line⟩
  | called {line : Timeline} {answer : Played Empty ι α}
      (hready : (c.ready.play own start).ending = .finished (.ok ()))
      (hline : (c.ready.play own start).line = line)
      (hcall : (c.call request).play own line = answer) :
      Serves layer request c own start
        ⟨answer.ending.mapError layer.convert,
          [(line, .settled (.ok ())), (line, .called request)], answer.line⟩

theorem operation_eq (layer : Layer ι ε) (request : ρ) (c : Clone ι ρ α) (own : Context) :
    layer.operation request c own = c.ready.quiet.andThen fun
      | .ok _ => .note (.settled (.ok ())) <| .note (.called request) <|
          (c.call request).quiet.mapError layer.convert
      | .error e => .note (.settled (.error e)) (.finish (.error (layer.convert e))) := by
  unfold operation Clone.serve Clone.await Task.mapError Task.bind
  rw [Task.andThen_assoc, Task.andThen_assoc]
  congr 1
  funext r
  cases r <;> rfl

theorem serves_operation (layer : Layer ι ε) (request : ρ) (c : Clone ι ρ α) (own : Context)
    (start : Timeline) :
    layer.Serves request c own start ((layer.operation request c own).play own start) := by
  rw [operation_eq, Task.play_andThen, Task.play_quiet]
  have hquiet : ((c.ready.play own start).quiet : Played (Served ι ρ) ι Unit).ending =
      (c.ready.play own start).ending := rfl
  -- The request is given only behind readiness, so how the wait for that ends says the rest.
  rcases (c.ready.play own start).ending.finished_or_without with ⟨r, hready⟩ | ⟨cut, hready⟩
  · rw [Played.andThen_of_finished (hquiet.trans hready)]
    cases r with
    | error e => exact .unready hready rfl
    | ok =>
      simp only [Task.play, Task.play_mapError, Task.play_quiet]
      exact .called hready rfl rfl
  · rw [Played.andThen_of_without (hquiet.trans hready)]
    exact .waiting hready

/-- The only request that a clone is given is the one of the call. -/
theorem Serves.given {layer : Layer ι ε} {request given : ρ} {c : Clone ι ρ α} {own : Context}
    {start line : Timeline} {played : Played (Served ι ρ) ε α}
    (h : layer.Serves request c own start played) (hmem : (line, .called given) ∈ played.notes) :
    given = request := by
  cases h with
  | waiting => cases hmem
  | unready => simp at hmem
  | @called settled =>
    have hlast : line = settled ∧ given = request := by simpa using hmem
    exact hlast.2

theorem mutedOp_operation (layer : Layer ι ε) (request : ρ) (c : Clone ι ρ α) :
    Policy.mutedOp (layer.operation request c) = fun _ =>
      (c.ready.bind fun _ => c.call request).mapError layer.convert := by
  funext own
  unfold Policy.mutedOp operation
  rw [Task.muted_mapError, c.muted_serve]

/-- Every attempt of a call is made with the next clone. -/
theorem exists_clone {layer : Layer ι ε} {clones : List (Clone ι ρ α)} {request : ρ}
    {journal : List (Entry (Served ι ρ) ε α)} {number : Nat} {op : Operation (Served ι ρ) ε α}
    {own : Context} {start : Timeline}
    (h : Policy.Made (clones.map (layer.operation request)) journal number op own start) :
    ∃ i c, number = i + 1 ∧ clones[i]? = some c ∧ layer.operation request c = op := by
  obtain ⟨i, hnumber, hop⟩ := h.op_eq
  rw [List.getElem?_map, Option.map_eq_some_iff] at hop
  obtain ⟨c, hc, hop⟩ := hop
  exact ⟨i, c, hnumber, hc, hop⟩

variable [OfReason ε]

/-- A call through a layer goes as the policy runs, under the layer's context, the work of waiting
for a fresh clone, giving it the request, and turning its error into one of the policy. Every clone
that is called is given the request of the call; every attempt takes the next clone and goes as
that does, and one that fails, be it for want of readiness, is faced by the policy or ends the run
that its context has ended. If that is done beforehand, no clone is taken. -/
theorem call_as_run (layer : Layer ι ε) (clones : List (Clone ι ρ α)) (request : ρ) (l : Timeline)
    (ws : Words) :
    let call := layer.call clones request l ws
    let ops := clones.map (layer.operation request)
    (∀ (inner : Clone ι ρ α) start, (layer.ready inner).alone start =
      (inner.ready.alone start).map fun (r, line) => (r.mapError layer.convert, line)) ∧
    call.muted = layer.policy.run layer.ctx (clones.map fun c _ =>
      (c.ready.bind fun _ => c.call request).mapError layer.convert) l ws ∧
    (∀ line given, ⟨line, .noted (.called given)⟩ ∈ call.journal → given = request) ∧
    (∀ number own err start, ⟨start, .invoked number own err⟩ ∈ call.journal →
      ∃ i c before after, number = i + 1 ∧ clones[i]? = some c ∧
        let played := (layer.operation request c own).play own start
        layer.Serves request c own start played ∧
        call.journal = before ++ ⟨start, .invoked number own (own.err start)⟩ ::
          (Policy.entriesOf played ++ after) ∧
        ∀ e, Policy.resultOf played.ending = some (.error e) →
          (∀ reason, layer.ctx.err played.line = some reason →
            call.status = Policy.abandon reason number) ∧
          (layer.ctx.err played.line = none → layer.policy.Faces layer.ctx ops l ws number e
            (layer.policy.release own played.line) after)) ∧
    (∀ reason, layer.ctx.err l = some reason →
      call = Policy.abandonBefore reason { line := l, words := ws } ops ∧
        ∀ line what, ⟨line, .noted what⟩ ∉ call.journal) := by
  intro call ops
  refine ⟨fun inner start => Task.alone_mapError _ _ start, ?_, ?_, ?_, ?_⟩
  · have hwork : ops.map Policy.mutedOp = clones.map fun c _ =>
        (c.ready.bind fun _ => c.call request).mapError layer.convert := by
      rw [List.map_map]
      exact List.map_congr_left fun c _ => layer.mutedOp_operation request c
    rw [← hwork]
    exact (layer.policy.run_muted layer.ctx ops l ws).symm
  · intro line given hmem
    obtain ⟨number, op, own, start, hmade, hnote⟩ := Policy.exists_made_of_noted hmem
    obtain ⟨-, c, -, -, rfl⟩ := exists_clone hmade
    exact (layer.serves_operation request c own start).given hnote
  · intro number own err start hmem
    obtain ⟨op, hmade⟩ := Policy.exists_made hmem
    obtain ⟨before, after, hjournal, -, hfaced⟩ := hmade.faced
    obtain ⟨i, c, hnumber, hc, rfl⟩ := exists_clone hmade
    exact ⟨i, c, before, after, hnumber, hc, layer.serves_operation request c own start, hjournal,
      hfaced⟩
  · intro reason hdone
    have habandoned : call = Policy.abandonBefore reason { line := l, words := ws } ops :=
      (Policy.Last.abandoned hdone).runFrom_eq
    refine ⟨habandoned, fun line what hmem => ?_⟩
    rw [habandoned] at hmem
    simp [Policy.abandonBefore, Entry.allAt] at hmem

/-- One clone does not get ready, one answers with an error, and the third one with a value; the two
that were called were given the same request. With the context done, none is taken. -/
theorem call_as_run_third_answers :
    let layer : Layer Bool Reason := ⟨Policy.ofReasons 3 .allErrors (some (Duration.ofSecs 1)),
      ⟨.root 0, none⟩, fun late => if late then .deadlineExceeded else .cancelled⟩
    let clones : List (Clone Bool Nat Nat) :=
      [⟨.sleep 1000000 (.finish (.error true)), fun given => .finish (.ok given)⟩,
        ⟨.finish (.ok ()), fun _ => .sleep 2000000 (.finish (.error false))⟩,
        ⟨.sleep 1000000 (.finish (.ok ())), fun given => .finish (.ok (given + 1))⟩]
    let ops := clones.map (layer.operation 41)
    let call := layer.call clones 41 {} []
    let given : Served Bool Nat → Option Nat := fun
      | .called request => some request
      | .settled _ => none
    let cancelled : Timeline := ({} : Timeline).cancel (.root 0)
    (call.status = .returned (.success 42 3) ∧
      (Entry.pick Event.note? call.journal).filterMap given = [41, 41] ∧
      call.muted = layer.policy.run layer.ctx (clones.map fun c _ =>
        (c.ready.bind fun _ => c.call 41).mapError layer.convert) {} []) ∧
    (∃ line after, layer.policy.Faces layer.ctx ops {} [] 1 .deadlineExceeded line after) ∧
    (layer.ctx.err cancelled = some .cancelled ∧
      (layer.call clones 41 cancelled []).status = Policy.abandon .cancelled 0 ∧
      (layer.call clones 41 cancelled []).untried.length = 3) := by
  intro layer clones ops call given cancelled
  obtain ⟨-, hmuted, -, hmade, -⟩ := call_as_run layer clones 41 {} []
  obtain ⟨-, -, -, -, hdone⟩ := call_as_run layer clones 41 cancelled []
  have hfirst : Policy.Made ops call.journal 1 (layer.operation 41 clones[0]) _ _ :=
    Policy.made_iff.mpr ⟨_, _, _, .start, rfl, rfl, rfl⟩
  obtain ⟨err, hinvoked⟩ := hfirst.invoked
  obtain ⟨i, c, before, after, hi, hc, -, -, hfaced⟩ := hmade 1 _ err _ hinvoked
  obtain rfl : i = 0 := by omega
  obtain rfl := Option.some.inj hc
  have hfaces := (hfaced .deadlineExceeded (by decide +kernel)).2 (by decide +kernel)
  have hreason : layer.ctx.err cancelled = some .cancelled := by decide
  refine ⟨⟨by decide +kernel, by decide +kernel, hmuted⟩, ⟨_, after, hfaces⟩, hreason, ?_⟩
  rw [(hdone .cancelled hreason).1]
  exact ⟨rfl, rfl⟩

end Layer

end Retry
