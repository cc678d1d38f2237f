import Retry.Http.Body
import Retry.Http.Retrier.Basic
import Retry.Policy.Run

namespace Retry.Http

/-- No list of expected codes accepts them all. -/
def accepts (expected : List Status) (s : Status) : Bool := expected.isEmpty || expected.contains s

namespace Retrier

variable {α : Type}

def isRetryable (r : Retrier) (s : Status) : Bool :=
  match s.listed? with
  | some retryable => retryable
  | none => r.unlisted s

/-- Drain a rejected response; its status is the fault, whatever became of its body. -/
def reject (r : Retrier) (response : Response) : Task Note HttpFault α :=
  (drain r.maxBytes response.body).bind fun body =>
    let status := response.status
    let retryable := r.isRetryable status
    let asked := if status.listed?.isNone then [.fellBack status] else []
    .noteAll (asked ++ [.logged (.unexpectedStatus status retryable)])
      (.fail (.status ⟨status, retryable, response.headers, body⟩))

/-- Read an accepted response and decode it, unless its body broke or is too large. -/
def accept (r : Retrier) (decode : Decoder α) (response : Response) : Task Note HttpFault α :=
  (Intake.read r.maxBytes response.body).andThen fun result => .note .closed <|
    match result with
    | .error fault => .fail (.transport fault)
    | .ok ⟨_, true⟩ => .fail (.decode (.tooLarge r.maxBytes))
    | .ok ⟨body, false⟩ =>
      .note (.decoded response.headers body)
        (.finish ((decode response.headers body).mapError .decode))

def attempt (r : Retrier) (expected : List Status) (decode : Decoder α) (number : Nat)
    (x : Exchange) : Operation Note HttpFault α := fun ctx =>
  .note (.asked number ctx.deadline) <|
    match x.build ctx with
    | .error fault => .fail fault
    | .ok request =>
      .note (.sent request) <| ((x.send request).quiet.mapError .transport).bind fun response =>
        .note (.opened response.status) <|
          if accepts expected response.status then r.accept decode response
          else r.reject response

def run (r : Retrier) (ctx : Context) (expected : List Status) (decode : Decoder α)
    (exchanges : List Exchange) (l : Timeline) (ws : Words) : Policy.Report Note HttpFault α :=
  r.policy.run ctx ((exchanges.zipIdx 1).map fun (x, number) => r.attempt expected decode number x)
    l ws

end Retrier

end Retry.Http
