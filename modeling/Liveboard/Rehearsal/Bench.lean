/-
  Liveboard/Rehearsal/Bench.lean
  ==============================
  **A connection rehearsed by itself.**

  Here nobody takes events off the queue unless told to, so every state between two events
  can be looked at.  Events may also be handed to the connection directly.
-/
import Liveboard.Rehearsal.Server
import Liveboard.Session.Connection

namespace Liveboard.Rehearsal

open Session

structure Bench where
  connection : Connection
  scene : Scene
  /-- How many session ids were given out. -/
  sessions : Nat

namespace Bench

/-- News handed to the connection directly. -/
inductive Injection where
  /-- A link opens with a queue of its own. -/
  | opened
  | reported (event : LinkEvent)

inductive Cue where
  | connect (credential : Option String)
  | disconnect
  | resume (generation : Nat) (chatId : String)
  | send (action : Action)
  | handle (generation : Nat) (injection : Injection) (activeChat : Option String)
  /-- Take one event off the queue. -/
  | next (activeChat : Option String)
  | server (cue : Scene.Cue)
  | advance (millis : Nat)

inductive Reply where
  | nothing
  | server (reply : Scene.Reply)
  | queued (yes : Bool)
  | dispatched (frame : Option String)
  | noEvent
  | woke (wake : Wake)
  | handled (generation : Nat) (news : LinkNews) (frame : Option String)

def start (settings : Settings) : Bench := ⟨.start settings, .start, 0⟩

def sessionId (n : Nat) : String := "session-" ++ Nat.repr n

/-! ### Standstill -/

/-- Links that were cut end, and what is due by now comes about. -/
def settle : Nat → Scene → Scene
  | 0, scene => scene
  | fuel + 1, scene =>
    let scene := scene.sweep.arrive
    match scene.ring? with
    | some scene => settle fuel scene
    | none => scene

def advanceTo : Nat → Nat → Scene → Scene
  | 0, _, scene => scene
  | fuel + 1, time, scene =>
    let scene := settle scene.effort scene
    if scene.now < time then
      let next := (scene.nextTime?.getD time)
      advanceTo fuel time (scene.move (.wait (min next time - scene.now)))
    else scene

/-! ### Cues -/

/-- Carry out the orders of the connection. -/
def carryOut (bench : Bench) (connection : Connection) (orders : List Order) :
    Bench × List Record :=
  let (world, records) := bench.scene.world.performAll orders
  let scene := records.foldl Scene.note { bench.scene with world := world }
  ({ bench with connection := connection, scene := scene }, records)

def wasQueued : Record → Bool
  | .queued _ _ => true
  | _ => false

/-- Hand news to the connection. -/
def handle (bench : Bench) (generation : Nat) (news : LinkNews) (activeChat : Option String) :
    Bench × Option String :=
  let (connection, orders, frame) :=
    bench.connection.handle generation news (sessionId bench.sessions) activeChat
  let (bench, _) := { bench with sessions := bench.sessions + 1 }.carryOut connection orders
  (bench, frame)

def inject (bench : Bench) (generation : Nat) : Injection → Bench × LinkNews
  | .opened =>
    let world := bench.scene.world
    let channels := world.channels ++ [Channel.fresh generation outboundCapacity]
    ({ bench with scene.world := { world with channels := channels } }, .opened world.channels.length)
  | .reported event => (bench, .reported event)

def act (bench : Bench) : Cue → Bench × Reply
  | .connect credential =>
    let (connection, orders) := bench.connection.connect credential
    ((bench.carryOut connection orders).1, .nothing)
  | .disconnect =>
    let (connection, orders) := bench.connection.disconnect
    ((bench.carryOut connection orders).1, .nothing)
  | .resume generation chatId =>
    ((bench.carryOut bench.connection (bench.connection.resume generation chatId)).1, .nothing)
  | .send action =>
    let (bench, records) := bench.carryOut bench.connection (bench.connection.send action)
    (bench, .queued (records.any wasQueued))
  | .handle generation injection activeChat =>
    let (bench, news) := bench.inject generation injection
    let (bench, frame) := bench.handle generation news activeChat
    (bench, .dispatched frame)
  | .next activeChat =>
    let world := bench.scene.world
    match world.events with
    | [] => (bench, .noEvent)
    | event :: rest =>
      let bench := { bench with scene.world := { world with events := rest } }
      match event with
      | .wake wake => (bench, .woke wake)
      | .link generation news =>
        let (bench, frame) := bench.handle generation news activeChat
        (bench, .handled generation news frame)
  | .server cue =>
    let (scene, reply) := bench.scene.play cue
    ({ bench with scene := scene }, .server reply)
  | .advance millis =>
    let scene := advanceTo (bench.scene.effort) (bench.scene.now + millis) bench.scene
    ({ bench with scene := scene }, .nothing)

/-- Follow a cue and come to a standstill; the journal is that of this cue alone. -/
def play (bench : Bench) (cue : Cue) : Bench × Reply :=
  let (bench, reply) := { bench with scene.journal := [] }.act cue
  ({ bench with scene := settle bench.scene.effort bench.scene }, reply)

end Bench
end Liveboard.Rehearsal
