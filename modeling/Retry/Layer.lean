import Retry.Policy.Run

namespace Retry

/-- A clone of a service with errors `ι`: how it becomes ready, and what it does with a request
`ρ`. -/
structure Clone (ι ρ α : Type) where
  ready : Task Empty ι Unit
  call : ρ → Task Empty ι α

inductive Served (ι ρ : Type) where
  /-- It turned out to be ready, or not to become so. -/
  | settled (result : Except ι Unit)
  | called (request : ρ)

namespace Clone

variable {ι ρ α : Type}

def await (c : Clone ι ρ α) : Task (Served ι ρ) ι Unit :=
  c.ready.quiet.andThen fun result => .note (.settled result) (.finish result)

/-- Wait until the clone is ready and give it the request. -/
def serve (c : Clone ι ρ α) (request : ρ) : Task (Served ι ρ) ι α :=
  c.await.bind fun _ => .note (.called request) (c.call request).quiet

end Clone

/-- A policy over errors `ε`, the context that all calls through it run under, and what an error of
the service means to the policy. -/
structure Layer (ι ε : Type) where
  policy : Policy ε
  ctx : Context
  convert : ι → ε

namespace Layer

variable {ι ε ρ α : Type}

/-- The wrapped service gets ready as the service in it does. -/
def ready (layer : Layer ι ε) (inner : Clone ι ρ α) : Task Empty ε Unit :=
  inner.ready.mapError layer.convert

def operation (layer : Layer ι ε) (request : ρ) (c : Clone ι ρ α) :
    Operation (Served ι ρ) ε α :=
  fun _ => (c.serve request).mapError layer.convert

/-- A call to the wrapped service, whose clones are taken in turn. -/
def call [OfReason ε] (layer : Layer ι ε) (clones : List (Clone ι ρ α)) (request : ρ)
    (l : Timeline) (ws : Words) : Policy.Report (Served ι ρ) ε α :=
  layer.policy.run layer.ctx (clones.map (layer.operation request)) l ws

end Layer

end Retry
