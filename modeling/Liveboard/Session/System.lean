/-
  Liveboard/Session/System.lean
  =============================
  **A running session: the loop, its inboxes, its surroundings and its callers.**

  The loop has two inboxes, commands of callers and events of links and timers, and may
  take the head of either at any time.  Callers are the holders of a handle; when the
  last handle is gone and no command is left, or on a shutdown, the loop ends.  Saving
  is done by batches, which are processes of their own.

  `step` is one elementary move and `run` a sequence of them.  Every interleaving of
  loop, links, timers, servers and callers is such a sequence, so what holds of all runs
  holds of every schedule.
-/
import Liveboard.Session.Batch
import Liveboard.Session.Client
import Liveboard.Session.World

namespace Liveboard.Session

structure System where
  world : World
  client : Client
  /-- What the provider of the credential answers now. -/
  credential : Option String
  /-- Commands submitted and not yet taken, oldest first. -/
  commands : List Command
  isRunning : Bool
  /-- Handles held by callers, apart from those of batches. -/
  handles : Nat
  /-- The board last published. -/
  published : Board
  /-- What watchers were last told. -/
  isOnline : Bool
  /-- Settled save requests whose answer was not yet taken. -/
  results : List (Ticket × Except Failure SavedComponent)
  /-- Answers to chat messages. -/
  answers : List (Ticket × Bool)
  batches : List Batch
  nextTicket : Ticket

namespace System

/-- A session that nobody has connected yet, held by one handle. -/
def start (settings : Settings) (credential : Option String) : System :=
  ⟨.start, .start settings, credential, [], true, 1, .empty, false, [], [], [], 0⟩

/-- Whether somebody holds a handle; a batch does until it is finished. -/
def isHeld (system : System) : Bool :=
  0 < system.handles || system.batches.any fun batch => !batch.isFinished

/-! ### Carrying out orders -/

/-- What watchers and waiting callers see of a record. -/
def observe (system : System) : Record → System
  | .announced isOnline => { system with isOnline := isOnline }
  | .published board => { system with published := board }
  | .settled ticket result => { system with results := system.results ++ [(ticket, result)] }
  | .answered ticket sent => { system with answers := system.answers ++ [(ticket, sent)] }
  | _ => system

def carryOut (system : System) (client : Client) (orders : List Order) : System × List Record :=
  let (world, records) := system.world.performAll orders
  (records.foldl observe { system with client := client, world := world }, records)

/-- A command that is never handled fails its save. -/
def abandoned : Command → Option Order
  | .save _ ticket => some (.settle ticket (.error .clientClosed))
  | _ => none

/-- The loop ends: commands that it has not taken fail, events are lost. -/
def stop (system : System) : System × List Record :=
  let (client, orders) := system.client.stop
  let left := system.commands.filterMap abandoned
  let (system, records) :=
    carryOut { system with isRunning := false, commands := [] } client (orders ++ left)
  let (world, released) := system.world.deafen
  ({ system with world := world }, records ++ released)

/-! ### Moves -/

/-- What a caller can ask of the loop through a handle. -/
inductive Ask where
  | connect
  | disconnect
  | shutdown
  | send (action : Action)
  | chat (content : String)
  | save (action : Action)

/-- The command for it; the ticket names the caller if it waits for an answer. -/
def Ask.command (ticket : Ticket) : Ask → Command
  | .connect => .connect
  | .disconnect => .disconnect
  | .shutdown => .shutdown
  | .send action => .send action
  | .chat content => .chat content ticket
  | .save action => .save action ticket

inductive Move where
  /-- The loop takes the next command. -/
  | takeCommand
  /-- The loop takes the next event; `sessionId` is the id for a link that opens by it. -/
  | takeEvent (sessionId : String)
  /-- A caller submits a command, under the next ticket. -/
  | submit (ask : Ask)
  /-- A caller starts a batch, with a handle of its own. -/
  | startBatch (requests : List SaveRequest)
  /-- A batch goes on as far as it can. -/
  | runBatch (index : Nat)
  /-- A caller clones a handle. -/
  | cloneHandle
  | dropHandle
  /-- The provider's credential changes. -/
  | setCredential (credential : Option String)
  /-- A link, a server or the clock moves. -/
  | world (move : World.Move)

def takeCommand (system : System) : System × List Record :=
  if !system.isRunning then (system, [])
  else match system.commands with
    | .shutdown :: rest => stop { system with commands := rest }
    | command :: rest =>
      let (client, orders) := system.client.onCommand system.credential command
      carryOut { system with commands := rest } client orders
    | [] => if system.isHeld then (system, []) else system.stop

def takeEvent (system : System) (sessionId : String) : System × List Record :=
  if !system.isRunning then (system, [])
  else match system.world.events with
    | event :: rest =>
      let (client, orders) := system.client.onEvent system.credential sessionId event
      carryOut { system with world := { system.world with events := rest } } client orders
    | [] => (system, [])

/-- Once the loop has ended nothing can be submitted. -/
def submit (system : System) (ask : Ask) : System :=
  if system.isRunning then
    { system with
      commands := system.commands ++ [ask.command system.nextTicket]
      nextTicket := system.nextTicket + 1 }
  else system

/-- Issue the next request of a batch, or take the answer it waits for. -/
def runBatch (system : System) (index : Nat) : System :=
  match system.batches[index]? with
  | none => system
  | some batch =>
    match batch.phase with
    | .finished _ => system
    | .waiting ticket =>
      match system.results.lookup ticket with
      | none => system
      | some result =>
        { system with
          results := system.results.filter fun entry => entry.1 != ticket
          batches := system.batches.set index (batch.take result) }
    | .ready =>
      match batch.next system.isOnline system.isRunning with
      | .inl finished => { system with batches := system.batches.set index finished }
      | .inr request =>
        let waiting := { batch with phase := .waiting system.nextTicket }
        submit { system with batches := system.batches.set index waiting } (.save request.action)

def step (system : System) : Move → System × List Record
  | .takeCommand => system.takeCommand
  | .takeEvent sessionId => system.takeEvent sessionId
  | .submit ask => (system.submit ask, [])
  | .startBatch requests =>
    ({ system with batches := system.batches ++ [.ofRequests requests] }, [])
  | .runBatch index => (system.runBatch index, [])
  | .cloneHandle => ({ system with handles := system.handles + 1 }, [])
  | .dropHandle => ({ system with handles := system.handles - 1 }, [])
  | .setCredential credential => ({ system with credential := credential }, [])
  | .world move => ({ system with world := system.world.step move }, [])

/-- Make the moves one after the other. -/
def run (system : System) : List Move → System × List Record
  | [] => (system, [])
  | move :: moves =>
    let (system, records) := system.step move
    let (system, later) := run system moves
    (system, records ++ later)

theorem run_append (system : System) (moves later : List Move) :
    system.run (moves ++ later) =
      (((system.run moves).1.run later).1,
        (system.run moves).2 ++ ((system.run moves).1.run later).2) := by
  induction moves generalizing system with
  | nil => rfl
  | cons move moves ih => simp [run, ih]

end System
end Liveboard.Session
