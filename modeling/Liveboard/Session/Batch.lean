/-
  Liveboard/Session/Batch.lean
  ============================
  **Saving one component after another.**

  A batch issues its requests in order, each only after the one before was confirmed.
  It ends with the first failure, or with what was saved so far once the client is
  offline or nothing is left.
-/
import Liveboard.Component.Savable
import Liveboard.Session.Order

namespace Liveboard.Session

/-- A component to save, under a type and perhaps a title. -/
structure SaveRequest where
  component : Component
  kindName : String
  title : Option String
deriving BEq, Repr

/-- The request of a single save; its chat is the active one. -/
def SaveRequest.action (request : SaveRequest) : Action :=
  .save none request.component request.kindName request.title

/-- The request for an entry of a forest. -/
def SaveRequest.ofSavable (entry : Savable) : SaveRequest :=
  ⟨entry.component, entry.kindName, some entry.title⟩

inductive BatchPhase where
  | ready
  /-- Waiting for the answer to the first of the remaining requests. -/
  | waiting (ticket : Ticket)
  | finished (result : Except Failure (List SavedComponent))

structure Batch where
  remaining : List SaveRequest
  saved : List SavedComponent
  phase : BatchPhase

namespace Batch

def ofRequests (requests : List SaveRequest) : Batch := ⟨requests, [], .ready⟩

/-- Save everything in a forest that can be saved. -/
def ofForest (forest : Forest) : Batch := ofRequests (forest.savables.map .ofSavable)

def isFinished (batch : Batch) : Bool :=
  match batch.phase with
  | .finished _ => true
  | _ => false

def finish (batch : Batch) (result : Except Failure (List SavedComponent)) : Batch :=
  { batch with phase := .finished result }

/-- The request to issue next, if the batch may issue one; else the batch is finished. -/
def next (batch : Batch) (isOnline isRunning : Bool) : Batch ⊕ SaveRequest :=
  match batch.remaining with
  | [] => .inl (batch.finish (.ok batch.saved))
  | request :: _ =>
    if !isOnline then .inl (batch.finish (.ok batch.saved))
    else if !isRunning then .inl (batch.finish (.error .clientClosed))
    else .inr request

/-- Take the answer to the request that was issued. -/
def take (batch : Batch) : Except Failure SavedComponent → Batch
  | .ok saved => ⟨batch.remaining.drop 1, batch.saved ++ [saved], .ready⟩
  | .error failure => batch.finish (.error failure)

end Batch
end Liveboard.Session
