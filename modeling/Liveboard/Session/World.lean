/-
  Liveboard/Session/World.lean
  ============================
  **The surroundings of the loop: clock, links, queues.**

  A link is a process of its own.  It is connecting until its transport opens or fails;
  once open it posts what the server sends, in order and tagged with its generation, and
  ends with the first report that is no frame.  A link that was cut may end at any
  moment.  A channel is the bounded queue of frames for the server behind an open link.

  `World.perform` carries out an order of the loop and records what came of it;
  `World.step` is one elementary move of a link, a server or the clock.
-/
import Liveboard.Session.Order

namespace Liveboard.Session

/-- How many frames an outbound queue holds. -/
def outboundCapacity : Nat := 100

structure Channel where
  /-- The generation of the link it belongs to. -/
  generation : Nat
  /-- Frames the server has not read, oldest first. -/
  unread : List Envelope
  capacity : Nat
  /-- The server still listens. -/
  isHeard : Bool
  /-- The client still holds its end. -/
  isHeld : Bool

namespace Channel

def fresh (generation capacity : Nat) : Channel := ⟨generation, [], capacity, true, true⟩

/-- A frame is accepted while the server listens and there is room. -/
def accepts (channel : Channel) : Bool :=
  channel.isHeard && channel.unread.length < channel.capacity

end Channel

inductive LinkPhase where
  | connecting
  | opened (channel : Nat)
  | ended
deriving DecidableEq, BEq, Repr

structure Link where
  generation : Nat
  phase : LinkPhase
  /-- Its cancellation was asked for. -/
  isCut : Bool
deriving DecidableEq, Repr

structure World where
  alarms : Alarms
  links : List Link
  channels : List Channel
  /-- Events posted and not yet taken, oldest first. -/
  events : List Event
  /-- Someone still takes events. -/
  isListening : Bool

/-- What came of an order. -/
inductive Record where
  | attempted (generation : Nat) (url : String)
  /-- The queue accepted the frame. -/
  | queued (channel : Nat) (envelope : Envelope)
  /-- The queue dropped the frame. -/
  | refused (channel : Nat) (envelope : Envelope)
  | released (channel : Nat)
  | announced (isOnline : Bool)
  | settled (ticket : Ticket) (result : Except Failure SavedComponent)
  | answered (ticket : Ticket) (sent : Bool)
  | reset
  | rendered (target : Target) (forest : Forest)
  | published (board : Board)

namespace World

def start : World := ⟨.start, [], [], [], true⟩

def now (world : World) : Nat := world.alarms.now

/-- Post an event for the loop; without a listener it is lost. -/
def post (world : World) (event : Event) : World :=
  if world.isListening then { world with events := world.events ++ [event] } else world

/-! ### Orders of the loop -/

/-- Whether a channel would accept a frame. -/
def accepts (world : World) (channel : Nat) : Bool :=
  (world.channels[channel]?.map Channel.accepts).getD false

def cutLink (generation : Nat) (link : Link) : Link :=
  if link.generation = generation then { link with isCut := true } else link

def perform (world : World) : Order → World × List Record
  | .attempt generation url =>
    ({ world with links := world.links ++ [⟨generation, .connecting, false⟩] },
      [.attempted generation url])
  | .cut generation => ({ world with links := world.links.map (cutLink generation) }, [])
  | .endScope =>
    ({ world with
        alarms := world.alarms.endScope
        links := world.links.map fun link => { link with isCut := true } }, [])
  | .arm after wake => ({ world with alarms := world.alarms.arm after wake }, [])
  | .armDetached after wake => ({ world with alarms := world.alarms.armDetached after wake }, [])
  | .offer channel envelope =>
    if world.accepts channel then
      ({ world with
          channels := world.channels.modify channel fun c => { c with unread := c.unread ++ [envelope] } },
        [.queued channel envelope])
    else (world, [.refused channel envelope])
  | .release channel =>
    ({ world with channels := world.channels.modify channel fun c => { c with isHeld := false } },
      [.released channel])
  | .announce isOnline => (world, [.announced isOnline])
  | .settle ticket result => (world, [.settled ticket result])
  | .answer ticket sent => (world, [.answered ticket sent])
  | .reset => (world, [.reset])
  | .render target forest => (world, [.rendered target forest])
  | .publish board => (world, [.published board])

def performAll (world : World) : List Order → World × List Record
  | [] => (world, [])
  | order :: orders =>
    let (world, records) := world.perform order
    let (world, later) := performAll world orders
    (world, records ++ later)

theorem performAll_append (world : World) (orders later : List Order) :
    world.performAll (orders ++ later) =
      (((world.performAll orders).1.performAll later).1,
        (world.performAll orders).2 ++ ((world.performAll orders).1.performAll later).2) := by
  induction orders generalizing world with
  | nil => rfl
  | cons order orders ih => simp [performAll, ih]

/-- The listener goes away.  Queues that only an untaken event held are let go of. -/
def deafen (world : World) : World × List Record :=
  let orders := world.events.filterMap fun
    | .link _ (.opened channel) => some (Order.release channel)
    | _ => none
  performAll { world with events := [], isListening := false } orders

/-! ### Moves of links, servers and the clock -/

inductive Move where
  /-- Time passes, though not beyond an alarm that is due. -/
  | wait (millis : Nat)
  /-- The alarm at this position rings, if it is due. -/
  | ring (index : Nat)
  /-- The transport of a connecting link opens, with a queue of this capacity. -/
  | linkOpens (generation capacity : Nat)
  | linkFails (generation : Nat)
  /-- An open link forwards what the server sent. -/
  | linkReports (generation : Nat) (event : LinkEvent)
  /-- A link that was cut ends. -/
  | linkStops (generation : Nat)
  /-- The server reads everything in a queue. -/
  | serverReads (channel : Nat)
  /-- The server stops listening; what it has not read is lost. -/
  | serverLeaves (channel : Nat)
deriving Repr

def link? (world : World) (generation : Nat) : Option Link :=
  world.links.find? fun link => link.generation == generation

def setPhase (world : World) (generation : Nat) (phase : LinkPhase) : World :=
  { world with links := world.links.map fun link =>
      if link.generation = generation then { link with phase := phase } else link }

/-- Whether a link can still open or fail. -/
def isConnecting (world : World) (generation : Nat) : Bool :=
  (world.link? generation).any fun link => link.phase == .connecting

/-- Whether a link can still report. -/
def isLinkOpen (world : World) (generation : Nat) : Bool :=
  (world.link? generation).any fun link =>
    match link.phase with
    | .opened _ => true
    | _ => false

/-- A move that is not possible changes nothing. -/
def step (world : World) : Move → World
  | .wait millis => { world with alarms := world.alarms.wait millis }
  | .ring index =>
    match world.alarms.ring? index with
    | some (wake, alarms) => { world with alarms := alarms }.post (.wake wake)
    | none => world
  | .linkOpens generation capacity =>
    if world.isConnecting generation && world.isListening then
      let channel := world.channels.length
      let channels := world.channels ++ [Channel.fresh generation capacity]
      ({ world with channels := channels }.setPhase generation (.opened channel)).post
        (.link generation (.opened channel))
    else world
  | .linkFails generation =>
    if world.isConnecting generation then
      (world.setPhase generation .ended).post (.link generation (.reported .closed))
    else world
  | .linkReports generation event =>
    if world.isLinkOpen generation then
      let world := if event.isFinal then world.setPhase generation .ended else world
      world.post (.link generation (.reported event))
    else world
  | .linkStops generation =>
    if (world.link? generation).any (·.isCut) then world.setPhase generation .ended else world
  | .serverReads channel =>
    { world with channels := world.channels.modify channel fun c => { c with unread := [] } }
  | .serverLeaves channel =>
    { world with channels :=
        world.channels.modify channel fun c => { c with unread := [], isHeard := false } }

end World
end Liveboard.Session
