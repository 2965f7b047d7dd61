/-
  Liveboard/Session/Order.lean
  ============================
  **What reaches the session loop and what it asks for.**

  The loop is a machine: commands and events go in, orders come out.  It owns no
  transport, no clock and no screen; orders are carried out by its surroundings, in the
  order given.  Outbound queues are named by number, links by generation, and requests
  that wait for an answer by their ticket.
-/
import Liveboard.Session.Alarm
import Liveboard.Session.Confirmations
import Liveboard.Wire.Envelope

namespace Liveboard.Session

/-- The name of a caller that waits for an answer. -/
abbrev Ticket := Nat

/-! ### Inputs -/

/-- What a live link reports. -/
inductive LinkEvent where
  | frame (text : String)
  | errored (reason : String)
  | closed
deriving DecidableEq, BEq, Repr

/-- After anything but a frame a link has nothing more to report. -/
def LinkEvent.isFinal : LinkEvent → Bool
  | .frame _ => false
  | _ => true

inductive LinkNews where
  /-- The transport is open; frames for the server go into this queue. -/
  | opened (channel : Nat)
  | reported (event : LinkEvent)
deriving DecidableEq, BEq, Repr

inductive Event where
  | link (generation : Nat) (news : LinkNews)
  | wake (wake : Wake)
deriving DecidableEq, BEq, Repr

inductive Command where
  | connect
  | disconnect
  | shutdown
  | send (action : Action)
  | chat (content : String) (ticket : Ticket)
  | save (action : Action) (ticket : Ticket)
deriving BEq, Repr

/-! ### Outputs -/

inductive Order where
  /-- Start a link, under the current scope. -/
  | attempt (generation : Nat) (url : String)
  /-- Cancel a link. -/
  | cut (generation : Nat)
  /-- Cancel every scoped alarm and link; a fresh scope begins. -/
  | endScope
  | arm (after : Nat) (wake : Wake)
  | armDetached (after : Nat) (wake : Wake)
  /-- Queue a frame for the server; a full or abandoned queue drops it. -/
  | offer (channel : Nat) (envelope : Envelope)
  /-- Let go of a queue; the transport closes. -/
  | release (channel : Nat)
  /-- Tell watchers whether the client is online. -/
  | announce (isOnline : Bool)
  | settle (ticket : Ticket) (result : Except Failure SavedComponent)
  | answer (ticket : Ticket) (sent : Bool)
  | reset
  | render (target : Target) (forest : Forest)
  /-- Show watchers this board. -/
  | publish (board : Board)

end Liveboard.Session
