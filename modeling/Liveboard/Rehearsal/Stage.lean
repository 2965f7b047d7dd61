/-
  Liveboard/Rehearsal/Stage.lean
  ==============================
  **A whole session rehearsed**: loop, callers, screen and command line.

  After every cue the session runs to a standstill: the loop empties its inboxes, then
  the tasks that something woke go on in the order they were woken, and so forth.  Every
  step on the way is a move of `Session.System`.
-/
import Liveboard.Cli.Shell
import Liveboard.Rehearsal.Server
import Liveboard.Session.Snapshot
import Liveboard.Session.System

namespace Liveboard.Rehearsal

open Session

/-- What a task was started for, which decides how its end is told. -/
inductive JobKind where
  /-- One component, through the handle. -/
  | single
  /-- One component, through the screen's save button. -/
  | button
  | all
  /-- All components of a message, from the command line. -/
  | typed

/-- A task that saves, and the step that started it. -/
structure Job where
  step : Nat
  kind : JobKind
  batch : Nat

/-- The reporter of changes, and what it has not looked at yet. -/
structure Reporter where
  last : Board
  hasNewConnectivity : Bool
  hasNewBoard : Bool

inductive Task where
  | job (index : Nat)
  | reporter
deriving DecidableEq, Repr

structure Stage where
  system : System
  server : Server
  journal : List Entry
  jobs : List Job
  /-- Tasks that can go on, in the order they were woken. -/
  awake : List Task
  reporter : Option Reporter
  /-- The director still holds a handle. -/
  hasHandle : Bool
  /-- Something was drawn, so there is a save button. -/
  hasDrawn : Bool
  /-- How many session ids were given out. -/
  sessions : Nat
  step : Nat

namespace Stage

def start (settings : Settings) (credential : Option String) (reports : Bool) : Stage :=
  let system := System.start settings credential
  { system := if reports then (system.step .cloneHandle).1 else system
    server := .start
    journal := []
    jobs := []
    awake := []
    reporter := if reports then some ⟨.empty, false, false⟩ else none
    hasHandle := true
    hasDrawn := false
    sessions := 0
    step := 0 }

/-! ### The scene around the loop -/

def scene (stage : Stage) : Scene := ⟨stage.system.world, stage.server, stage.journal⟩

def withScene (stage : Stage) (scene : Scene) : Stage :=
  { stage with
    system := { stage.system with world := scene.world }
    server := scene.server
    journal := scene.journal }

def onScene (stage : Stage) (change : Scene → Scene) : Stage :=
  stage.withScene (change stage.scene)

def write (stage : Stage) (entry : Entry) : Stage :=
  { stage with journal := stage.journal ++ [entry] }

def now (stage : Stage) : Nat := stage.system.world.now

/-! ### What the moves of the session set off -/

def wake (stage : Stage) (task : Task) : Stage :=
  if stage.awake.contains task then stage else { stage with awake := stage.awake ++ [task] }

def phase? (stage : Stage) (job : Job) : Option BatchPhase :=
  stage.system.batches[job.batch]?.map Batch.phase

def waitsFor (stage : Stage) (ticket : Ticket) (job : Job) : Bool :=
  match stage.phase? job with
  | some (.waiting awaited) => awaited == ticket
  | _ => false

/-- Wake the task that waits under a ticket. -/
def wakeWaiting (stage : Stage) (ticket : Ticket) : Stage :=
  match stage.jobs.findIdx? (stage.waitsFor ticket) with
  | some index => stage.wake (.job index)
  | none => stage

def note (stage : Stage) (record : Record) : Stage :=
  match record with
  | .announced _ =>
    match stage.reporter with
    | some reporter =>
      { stage with reporter := some { reporter with hasNewConnectivity := true } }.wake .reporter
    | none => stage
  | .published _ =>
    match stage.reporter with
    | some reporter =>
      { stage with reporter := some { reporter with hasNewBoard := true } }.wake .reporter
    | none => stage
  | .settled ticket _ => stage.wakeWaiting ticket
  | .reset => stage.write (.drew Cli.switchLine)
  | .rendered target forest =>
    { stage.write (.drew (Cli.drawing target forest)) with hasDrawn := true }
  | record => stage.onScene fun scene => scene.note record

def move (stage : Stage) (move : System.Move) : Stage :=
  let (system, records) := stage.system.step move
  records.foldl note { stage with system := system }

/-! ### Tasks -/

/-- Tell how a task ended. -/
def conclude (stage : Stage) (job : Job) (result : Except Failure (List SavedComponent)) : Stage :=
  let done (ending : Ending) : Stage := stage.write (.done job.step stage.now ending)
  match job.kind, result with
  | .typed, result =>
    match Cli.saveOutcome result with
    | .inl line => stage.write (.printed line)
    | .inr line => stage.write (.complained line)
  | _, .error failure => done (.failed failure)
  | .single, .ok saved => done (.saved saved.head?)
  | .button, .ok saved => done (.confirmed (!saved.isEmpty))
  | .all, .ok saved => done (.savedAll saved)

def canGoOn (stage : Stage) (job : Job) : Bool :=
  match stage.phase? job with
  | some .ready => true
  | some (.waiting ticket) => (stage.system.results.lookup ticket).isSome
  | _ => false

/-- Let a task go on until it waits or ends. -/
def runJob : Nat → Job → Stage → Stage
  | 0, _, stage => stage
  | fuel + 1, job, stage =>
    if stage.canGoOn job then
      let stage := stage.move (.runBatch job.batch)
      match stage.phase? job with
      | some (.finished result) => stage.conclude job result
      | _ => runJob fuel job stage
    else stage

/-- The reporter tells what changed since it last looked.  It ends with the loop. -/
def runReporter (stage : Stage) : Stage :=
  match stage.reporter with
  | none => stage
  | some reporter =>
    let connectivity :=
      if reporter.hasNewConnectivity then [Cli.connectivityLine stage.system.isOnline] else []
    let board := stage.system.published
    let changes := if reporter.hasNewBoard then Cli.changeLines reporter.last board else []
    let last := if reporter.hasNewBoard then board else reporter.last
    let stage := { stage with journal := stage.journal ++ (connectivity ++ changes).map Entry.complained }
    if stage.system.isRunning then { stage with reporter := some ⟨last, false, false⟩ }
    else { stage.move .dropHandle with reporter := none }

def runTask (stage : Stage) : Task → Stage
  | .reporter => stage.runReporter
  | .job index =>
    match stage.jobs[index]? with
    | some job =>
      let remaining := (stage.system.batches[job.batch]?.map fun batch => batch.remaining.length).getD 0
      runJob (2 * remaining + 2) job stage
    | none => stage

/-! ### Standstill -/

/-- Whether the loop has something to do. -/
def isBusy (stage : Stage) : Bool :=
  stage.system.isRunning &&
    (!stage.system.commands.isEmpty || !stage.system.world.events.isEmpty || !stage.system.isHeld)

def takeNext (stage : Stage) : Stage :=
  if stage.system.commands.isEmpty && !stage.system.world.events.isEmpty then
    { stage with sessions := stage.sessions + 1 }.move
      (.takeEvent ("session-" ++ Nat.repr stage.sessions))
  else stage.move .takeCommand

def settle : Nat → Stage → Stage
  | 0, stage => stage
  | fuel + 1, stage =>
    if stage.isBusy then settle fuel stage.takeNext
    else
      match stage.awake with
      | task :: awake => settle fuel ({ stage with awake := awake }.runTask task)
      | [] =>
        let stage := stage.onScene fun scene => scene.sweep.arrive
        if stage.isBusy then settle fuel stage
        else
          match stage.scene.ring? with
          | some scene => settle fuel (stage.withScene scene)
          | none => stage

/-- How many steps it can take to come to a standstill, generously. -/
def effort (stage : Stage) : Nat :=
  stage.scene.effort +
    16 * (stage.system.commands.length + stage.awake.length + stage.jobs.length +
      stage.system.batches.foldl (fun n batch => n + batch.remaining.length) 0)

def standStill (stage : Stage) : Stage := settle stage.effort stage

def advanceTo : Nat → Nat → Stage → Stage
  | 0, _, stage => stage
  | fuel + 1, time, stage =>
    let stage := stage.standStill
    if stage.now < time then
      let next := stage.scene.nextTime?.getD time
      advanceTo fuel time (stage.move (.world (.wait (min next time - stage.now))))
    else stage

/-! ### Cues -/

inductive Cue where
  | credential (value : Option String)
  | ask (ask : System.Ask)
  /-- The same action several times. -/
  | send (action : Action) (times : Nat)
  | chat (content : String)
  | save (request : SaveRequest)
  | saveAll (forest : Forest)
  /-- Save through the button of the latest drawing. -/
  | press (request : SaveRequest)
  /-- A line on the command line. -/
  | type (line : String)
  | dropHandle
  | server (cue : Scene.Cue)
  | advance (millis : Nat)

inductive Reply where
  | nothing
  | failed (failure : Failure)
  | refused (message : String)
  | sent (yes : Bool)
  | server (reply : Scene.Reply)
  /-- There is no handle any more. -/
  | dropped

/-- The cue needs the director's handle. -/
def Cue.needsHandle : Cue → Bool
  | .ask _ | .send _ _ | .chat _ | .save _ | .saveAll _ | .type _ => true
  | _ => false

/-- Ask the loop; once it has ended that fails. -/
def submit (stage : Stage) (ask : System.Ask) : Stage × Reply :=
  if stage.system.isRunning then (stage.move (.submit ask), .nothing)
  else (stage, .failed .clientClosed)

def sendTimes : Nat → Action → Stage → Stage × Reply
  | 0, _, stage => (stage, .nothing)
  | 1, action, stage => stage.submit (.send action)
  | n + 1, action, stage => sendTimes n action (stage.submit (.send action)).1

def startJob (stage : Stage) (kind : JobKind) (requests : List SaveRequest) : Stage :=
  let job : Job := ⟨stage.step, kind, stage.system.batches.length⟩
  { stage.move (.startBatch requests) with jobs := stage.jobs ++ [job] }.wake
    (.job stage.jobs.length)

/-- Send a message and wait for the answer. -/
def sendChat (stage : Stage) (content : String) : Stage × Reply :=
  if stage.system.isRunning then
    let ticket := stage.system.nextTicket
    let stage := (stage.move (.submit (.chat content))).standStill
    match stage.system.answers.lookup ticket with
    | some sent => (stage, .sent sent)
    | none => (stage, .failed .clientClosed)
  else (stage, .failed .clientClosed)

/-- Press the save button of the latest drawing, if there is one. -/
def press (stage : Stage) (request : SaveRequest) : Stage :=
  if !stage.hasDrawn then stage
  else if stage.system.isHeld then stage.startJob .button [request]
  else stage.write (.done stage.step stage.now (.failed .clientClosed))

def typeLine (stage : Stage) (line : String) : Stage × Reply :=
  match Cli.respond stage.system.published (Cli.Input.parse line) with
  | .error refusal => (stage, .refused refusal.message)
  | .ok (lines, demand) =>
    let stage := { stage with journal := stage.journal ++ lines.map .printed }
    match demand with
    | .nothing => (stage, .nothing)
    | .send action => stage.submit (.send action)
    | .chat text =>
      match stage.sendChat text with
      | (stage, .sent true) => (stage, .nothing)
      | (stage, .sent false) => (stage.write (.complained Cli.notSentLine), .nothing)
      | answer => answer
    | .saveAll forest =>
      (stage.startJob .typed (forest.savables.map .ofSavable), .nothing)

def act (stage : Stage) : Cue → Stage × Reply
  | .credential value => (stage.move (.setCredential value), .nothing)
  | .ask ask => stage.submit ask
  | .send action times => sendTimes times action stage
  | .chat content => stage.sendChat content
  | .save request => (stage.startJob .single [request], .nothing)
  | .saveAll forest => (stage.startJob .all (forest.savables.map .ofSavable), .nothing)
  | .press request => (stage.press request, .nothing)
  | .type line => stage.typeLine line
  | .dropHandle =>
    if stage.hasHandle then ({ stage.move .dropHandle with hasHandle := false }, .nothing)
    else (stage, .nothing)
  | .server cue =>
    let (scene, reply) := stage.scene.play cue
    (stage.withScene scene, .server reply)
  | .advance millis => (advanceTo stage.effort (stage.now + millis) stage, .nothing)

/-- Follow a cue and come to a standstill; the journal is that of this cue alone. -/
def play (stage : Stage) (cue : Cue) : Stage × Reply :=
  let stage := { stage with journal := [] }
  let (stage, reply) :=
    if cue.needsHandle && !stage.hasHandle then (stage, .dropped) else stage.act cue
  let stage := stage.standStill
  ({ stage with step := stage.step + 1 }, reply)

end Stage
end Liveboard.Rehearsal
