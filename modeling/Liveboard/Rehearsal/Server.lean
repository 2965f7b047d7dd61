/-
  Liveboard/Rehearsal/Server.lean
  ===============================
  **A scripted server on the far side of the links.**

  The script says, attempt by attempt, whether and when the transport opens.  An opened
  transport is a line, numbered in order of opening.  The server reads what the client
  sends on a line at once, unless the line is held back: then it reads only when told,
  and the queue can fill up.

  A scene is a world together with its server and a journal of what could be seen.
-/
import Liveboard.Session.World

namespace Liveboard.Rehearsal

open Session

/-- What becomes of an attempt to connect. -/
inductive Outcome where
  | opens (after : Nat)
  | fails (after : Nat)
  | hangs
  /-- Opens at once, but the server does not read until told. -/
  | heldBack
deriving DecidableEq, Repr

/-- An attempt whose outcome is still to come. -/
structure Due where
  time : Nat
  generation : Nat
  opens : Bool

/-- An opened transport as the server sees it. -/
structure Line where
  generation : Nat
  channel : Nat
  isHeldBack : Bool
  /-- The server's end is still there. -/
  hasEnd : Bool

structure Server where
  plan : List Outcome
  pending : List Due
  lines : List Line

def Server.start : Server := ⟨[], [], []⟩

/-- How the journal names the far side of a channel. -/
inductive Label where
  | line (number : Nat)
  /-- A channel that did not come from a link. -/
  | injected
deriving DecidableEq, Repr

/-- The end of a task that a step started. -/
inductive Ending where
  /-- A single save; offline it saves nothing. -/
  | saved (component : Option SavedComponent)
  | savedAll (components : List SavedComponent)
  | confirmed (yes : Bool)
  | failed (failure : Failure)

inductive Entry where
  | attempt (time : Nat) (url : String)
  | sent (time : Nat) (label : Label) (envelope : Envelope)
  | closed (time : Nat) (label : Label)
  | drew (text : String)
  | printed (line : String)
  | complained (line : String)
  | done (step : Nat) (time : Nat) (ending : Ending)

structure Scene where
  world : World
  server : Server
  journal : List Entry

namespace Scene

def start : Scene := ⟨.start, .start, []⟩

def now (scene : Scene) : Nat := scene.world.now

def move (scene : Scene) (move : World.Move) : Scene :=
  { scene with world := scene.world.step move }

def write (scene : Scene) (entry : Entry) : Scene :=
  { scene with journal := scene.journal ++ [entry] }

/-! ### Lines -/

/-- The line over which a channel runs, and its number. -/
def lineOf? (scene : Scene) (channel : Nat) : Option (Line × Nat) :=
  scene.server.lines.zipIdx.find? fun (line, _) => line.channel == channel

def label (scene : Scene) (channel : Nat) : Label :=
  match scene.lineOf? channel with
  | some (_, number) => .line number
  | none => .injected

def isHeldBack (scene : Scene) (channel : Nat) : Bool :=
  (scene.lineOf? channel).any fun (line, _) => line.isHeldBack

/-- The transport of a connecting link opens, unless the link was cut. -/
def openLine (scene : Scene) (generation : Nat) (isHeldBack : Bool) : Scene :=
  let channel := scene.world.channels.length
  let opened := scene.move (.linkOpens generation outboundCapacity)
  if channel < opened.world.channels.length then
    { opened with server.lines := opened.server.lines ++ [⟨generation, channel, isHeldBack, true⟩] }
  else scene

/-- An attempt meets the next outcome of the plan; beyond the plan everything opens. -/
def meet (scene : Scene) (generation : Nat) : Scene :=
  let outcome := scene.server.plan.head?.getD (.opens 0)
  let scene := { scene with server.plan := scene.server.plan.drop 1 }
  match outcome with
  | .opens 0 => scene.openLine generation false
  | .fails 0 => scene.move (.linkFails generation)
  | .hangs => scene
  | .heldBack => scene.openLine generation true
  | .opens after => { scene with server.pending := scene.server.pending ++ [⟨scene.now + after, generation, true⟩] }
  | .fails after => { scene with server.pending := scene.server.pending ++ [⟨scene.now + after, generation, false⟩] }

/-- Links that were cut end. -/
def sweep (scene : Scene) : Scene :=
  scene.world.links.foldl
    (fun scene link =>
      if link.isCut && link.phase != .ended then scene.move (.linkStops link.generation) else scene)
    scene

/-- Outcomes whose time has come. -/
def arrive (scene : Scene) : Scene :=
  let (come, later) := scene.server.pending.partition fun due => due.time ≤ scene.now
  come.foldl
    (fun scene due =>
      if due.opens then scene.openLine due.generation false
      else scene.move (.linkFails due.generation))
    { scene with server.pending := later }

/-! ### What came of the orders of the loop -/

def note (scene : Scene) : Record → Scene
  | .attempted generation url => (scene.write (.attempt scene.now url)).meet generation
  | .queued channel envelope =>
    if scene.isHeldBack channel then scene
    else (scene.write (.sent scene.now (scene.label channel) envelope)).move (.serverReads channel)
  | .released channel =>
    if scene.isHeldBack channel then scene
    else scene.write (.closed scene.now (scene.label channel))
  | _ => scene

/-! ### What the server does when told -/

inductive Cue where
  | plan (outcomes : List Outcome)
  /-- Send events over a line, by default the newest one. -/
  | send (line : Option Nat) (events : List LinkEvent)
  /-- The server's end of a line goes away. -/
  | leave (line : Option Nat)
  /-- Stop listening on a line that is held back. -/
  | deafen (line : Option Nat)
  /-- Read everything on a line that is held back. -/
  | drain (line : Option Nat)

/-- The answer to a cue. -/
inductive Reply where
  | nothing
  | count (n : Nat)
  | flag (yes : Bool)
deriving DecidableEq, Repr

def line? (scene : Scene) (number : Option Nat) : Option (Line × Nat) :=
  let number := number.getD (scene.server.lines.length - 1)
  scene.server.lines[number]?.map (·, number)

def channel? (scene : Scene) (line : Line) : Option Channel := scene.world.channels[line.channel]?

def play (scene : Scene) : Cue → Scene × Reply
  | .plan outcomes => ({ scene with server.plan := scene.server.plan ++ outcomes }, .nothing)
  | .send number events =>
    match scene.line? number with
    | some (line, _) =>
      if line.hasEnd && scene.world.isLinkOpen line.generation then
        (events.foldl (fun scene event => scene.move (.linkReports line.generation event)) scene,
          .count events.length)
      else (scene, .count 0)
    | none => (scene, .count 0)
  | .leave number =>
    match scene.line? number with
    | some (line, number) =>
      if line.hasEnd then
        let lines := scene.server.lines.set number { line with hasEnd := false }
        ({ scene with server.lines := lines }.move (.linkReports line.generation .closed), .flag true)
      else (scene, .flag false)
    | none => (scene, .flag false)
  | .deafen number =>
    match scene.line? number with
    | some (line, _) =>
      if line.isHeldBack && (scene.channel? line).any (·.isHeard) then
        (scene.move (.serverLeaves line.channel), .flag true)
      else (scene, .flag false)
    | none => (scene, .flag false)
  | .drain number =>
    match scene.line? number with
    | some (line, number) =>
      if line.isHeldBack then
        let unread := ((scene.channel? line).map (·.unread)).getD []
        (unread.foldl (fun scene envelope => scene.write (.sent scene.now (.line number) envelope))
          (scene.move (.serverReads line.channel)), .count unread.length)
      else (scene, .count 0)
    | none => (scene, .count 0)

/-! ### Time -/

/-- When something happens next by itself. -/
def nextTime? (scene : Scene) : Option Nat :=
  (scene.world.alarms.nextDue?.toList ++ scene.server.pending.map (·.time)).min?

/-- The first alarm that is due rings. -/
def ring? (scene : Scene) : Option Scene :=
  match scene.world.alarms.nextDue?, scene.world.alarms.firstDue? with
  | some due, some index => if due ≤ scene.now then some (scene.move (.ring index)) else none
  | _, _ => none

/-- How many steps it can take until nothing happens by itself any more, generously. -/
def effort (scene : Scene) : Nat :=
  16 * (4 + scene.world.events.length + scene.world.alarms.armed.length +
    scene.world.links.length + scene.server.plan.length + scene.server.pending.length)

end Scene
end Liveboard.Rehearsal
