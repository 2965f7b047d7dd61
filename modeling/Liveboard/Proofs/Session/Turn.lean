/-
  Liveboard/Proofs/Session/Turn.lean
  ==================================
  **What one move of a session can do.**

  A move hands the loop one input, ends the loop, moves the surroundings, or concerns
  callers alone.  `turn_step` says so once for every move: an invariant of all runs is
  then one case for each of these, and `run_induction` carries it through the run.
-/
import Liveboard.Proofs.Session.Handlers
import Liveboard.Proofs.Session.Surroundings
import Liveboard.Session.System

namespace Liveboard.Session.System

/-! ### Carrying out orders -/

/-- Watchers and waiting callers are all that a record reaches. -/
theorem exists_foldl_observe (records : List Record) (system : System) :
    ∃ isOnline published results answers,
      records.foldl observe system =
        { system with
          isOnline := isOnline, published := published, results := results, answers := answers } := by
  induction records generalizing system with
  | nil => exact ⟨_, _, _, _, rfl⟩
  | cons record records ih =>
    obtain ⟨isOnline, published, results, answers, h⟩ := ih (system.observe record)
    rw [List.foldl_cons, h]
    cases record <;> exact ⟨_, _, _, _, rfl⟩

section carryOut

variable (system : System) (client : Client) (orders : List Order)

theorem exists_carryOut :
    ∃ isOnline published results answers,
      carryOut system client orders =
        ({ system with
            client := client, world := (system.world.performAll orders).1
            isOnline := isOnline, published := published, results := results, answers := answers },
          (system.world.performAll orders).2) := by
  obtain ⟨isOnline, published, results, answers, h⟩ :=
    exists_foldl_observe (system.world.performAll orders).2
      { system with client := client, world := (system.world.performAll orders).1 }
  exact ⟨isOnline, published, results, answers, Prod.ext h rfl⟩

@[simp] theorem client_carryOut : (carryOut system client orders).1.client = client := by
  obtain ⟨_, _, _, _, h⟩ := exists_carryOut system client orders
  rw [h]

@[simp] theorem world_carryOut :
    (carryOut system client orders).1.world = (system.world.performAll orders).1 := by
  obtain ⟨_, _, _, _, h⟩ := exists_carryOut system client orders
  rw [h]

@[simp] theorem commands_carryOut :
    (carryOut system client orders).1.commands = system.commands := by
  obtain ⟨_, _, _, _, h⟩ := exists_carryOut system client orders
  rw [h]

@[simp] theorem isRunning_carryOut :
    (carryOut system client orders).1.isRunning = system.isRunning := by
  obtain ⟨_, _, _, _, h⟩ := exists_carryOut system client orders
  rw [h]

@[simp] theorem credential_carryOut :
    (carryOut system client orders).1.credential = system.credential := by
  obtain ⟨_, _, _, _, h⟩ := exists_carryOut system client orders
  rw [h]

@[simp] theorem nextTicket_carryOut :
    (carryOut system client orders).1.nextTicket = system.nextTicket := by
  obtain ⟨_, _, _, _, h⟩ := exists_carryOut system client orders
  rw [h]

@[simp] theorem records_carryOut :
    (carryOut system client orders).2 = (system.world.performAll orders).2 := by
  obtain ⟨_, _, _, _, h⟩ := exists_carryOut system client orders
  rw [h]

end carryOut

/-! ### The end of the loop -/

/-- What is carried out when the loop ends. -/
def lastOrders (system : System) : List Order :=
  system.client.stop.2 ++ system.commands.filterMap abandoned

/-- The loop ends by hanging up, and fails the saves that it has not taken. -/
theorem hangUp_or_settle_of_mem_lastOrders {system : System} {order : Order}
    (h : order ∈ system.lastOrders) :
    order ∈ (system.client.hangUp .clientClosed).2 ∨
      ∃ ticket, order = .settle ticket (.error .clientClosed) := by
  rcases List.mem_append.mp h with h | h
  · exact .inl h
  · obtain ⟨command, -, given⟩ := List.mem_filterMap.mp h
    cases command with
    | save action ticket => exact .inr ⟨ticket, (Option.some.inj given).symm⟩
    | _ => cases given

section stop

variable (system : System)

/-- The session before the events that are left are lost. -/
def lastTurn : System × List Record :=
  carryOut { system with isRunning := false, commands := [] } system.client.stop.1
    system.lastOrders

theorem stop_eq : system.stop =
    ({ system.lastTurn.1 with world := system.lastTurn.1.world.deafen.1 },
      system.lastTurn.2 ++ system.lastTurn.1.world.deafen.2) := rfl

@[simp] theorem client_stop : system.stop.1.client = system.client.stop.1 := by
  simp [stop_eq, lastTurn]

@[simp] theorem isRunning_stop : system.stop.1.isRunning = false := by
  simp [stop_eq, lastTurn]

@[simp] theorem commands_stop : system.stop.1.commands = [] := by
  simp [stop_eq, lastTurn]

@[simp] theorem nextTicket_stop : system.stop.1.nextTicket = system.nextTicket := by
  simp [stop_eq, lastTurn]

@[simp] theorem world_stop :
    system.stop.1.world = (system.world.performAll system.lastOrders).1.deafen.1 := by
  simp [stop_eq, lastTurn]

@[simp] theorem records_stop :
    system.stop.2 = (system.world.performAll system.lastOrders).2 ++
      (system.world.performAll system.lastOrders).1.deafen.2 := by
  simp [stop_eq, lastTurn]

end stop

/-! ### One move -/

/-- What a move hands the loop. -/
def input? (system : System) : Move → Option Input
  | .takeCommand => if system.isRunning then system.commands.head?.map .command else none
  | .takeEvent _ => if system.isRunning then system.world.events.head?.map .event else none
  | _ => none

/-- The session without the input that a move takes. -/
def without (system : System) : Input → System
  | .command _ => { system with commands := system.commands.tail }
  | .event _ =>
    { system with world := { system.world with events := system.world.events.tail } }

section without

variable (system : System) (input : Input)

@[simp] theorem client_without : (system.without input).client = system.client := by
  cases input <;> rfl

@[simp] theorem isRunning_without : (system.without input).isRunning = system.isRunning := by
  cases input <;> rfl

@[simp] theorem credential_without : (system.without input).credential = system.credential := by
  cases input <;> rfl

@[simp] theorem nextTicket_without : (system.without input).nextTicket = system.nextTicket := by
  cases input <;> rfl

@[simp] theorem alarms_without : (system.without input).world.alarms = system.world.alarms := by
  cases input <;> rfl

@[simp] theorem now_without : (system.without input).world.now = system.world.now := by
  cases input <;> rfl

@[simp] theorem isListening_without :
    (system.without input).world.isListening = system.world.isListening := by
  cases input <;> rfl

theorem length_commands_without_le :
    (system.without input).commands.length ≤ system.commands.length := by
  cases input with
  | command command =>
    simp only [without, List.length_tail]
    omega
  | event event => exact Nat.le_refl _

@[simp] theorem generations_without :
    (system.without input).world.generations = system.world.generations := by
  cases input <;> rfl

end without

theorem of_input?_command {system : System} {move : Move} {command : Command}
    (taken : system.input? move = some (.command command)) :
    move = .takeCommand ∧ system.isRunning = true ∧
      system.commands = command :: system.commands.tail := by
  cases move with
  | takeCommand =>
    cases running : system.isRunning <;> cases next : system.commands <;> simp_all [input?]
  | takeEvent sessionId =>
    cases running : system.isRunning <;> cases next : system.world.events <;> simp_all [input?]
  | _ => cases taken

theorem of_input?_event {system : System} {move : Move} {event : Event}
    (taken : system.input? move = some (.event event)) :
    (∃ sessionId, move = .takeEvent sessionId) ∧ system.isRunning = true ∧
      system.world.events = event :: system.world.events.tail := by
  cases move with
  | takeCommand =>
    cases running : system.isRunning <;> cases next : system.commands <;> simp_all [input?]
  | takeEvent sessionId =>
    cases running : system.isRunning <;> cases next : system.world.events <;> simp_all [input?]
  | _ => cases taken

/-- The command that was put into the queue on the way from one state to the next. -/
def submitted? (system after : System) : Option Command :=
  (after.commands.drop system.commands.length).head?

theorem submitted?_eq_none {system after : System}
    (fewer : after.commands.length ≤ system.commands.length) :
    system.submitted? after = none := by
  rw [submitted?, List.drop_eq_nil_of_le fewer]
  rfl

theorem submitted?_eq_some {system after : System} {command : Command}
    (more : after.commands = system.commands ++ [command]) :
    system.submitted? after = some command := by
  rw [submitted?, more, List.drop_left]
  rfl

/-- The results that a move can have. -/
inductive Turn (system : System) : Move → System × List Record → Prop where
  | handled {move : Move} {input : Input} (sessionId : String)
      (taken : system.input? move = some input) (goesOn : input ≠ .command .shutdown) :
      Turn system move
        (carryOut (system.without input)
          (system.client.handle system.credential sessionId input).1
          (system.client.handle system.credential sessionId input).2)
  /-- The loop ends, on a shutdown or because nobody is left to ask anything. -/
  | ending {left : List Command} (running : system.isRunning = true)
      (next : system.commands = .shutdown :: left ∨ system.commands = [] ∧ left = []) :
      Turn system .takeCommand (stop { system with commands := left })
  | surroundings (move : World.Move) :
      Turn system (.world move) ({ system with world := system.world.step move }, [])
  /-- A caller or a batch submits a command. -/
  | submission {move : Move} (nothing : system.input? move = none) (ask : Ask)
      (batches : List Batch) (running : system.isRunning = true) :
      Turn system move
        ({ system with
            commands := system.commands ++ [ask.command system.nextTicket]
            nextTicket := system.nextTicket + 1
            batches := batches }, [])
  /-- Loop, inboxes and surroundings stay as they are. -/
  | idle {move : Move} (nothing : system.input? move = none) (credential : Option String)
      (handles : Nat) (batches : List Batch)
      (results : List (Ticket × Except Failure SavedComponent)) :
      Turn system move
        ({ system with
            credential := credential, handles := handles, batches := batches
            results := results }, [])

theorem turn_rfl {system : System} {move : Move} (nothing : system.input? move = none) :
    Turn system move (system, []) :=
  .idle nothing system.credential system.handles system.batches system.results

theorem turn_submit {system : System} {move : Move} (nothing : system.input? move = none)
    (ask : Ask) (batches : List Batch) :
    Turn system move (submit { system with batches := batches } ask, []) := by
  unfold submit
  split
  · next running => exact .submission nothing ask batches running
  · exact .idle nothing system.credential system.handles batches system.results

theorem turn_takeCommand (system : System) : Turn system .takeCommand system.takeCommand := by
  unfold takeCommand
  split
  · next halted =>
    have halted : system.isRunning = false := by simpa using halted
    have nothing : system.input? .takeCommand = none := by simp [input?, halted]
    exact turn_rfl nothing
  · next halted =>
    have running : system.isRunning = true := by simpa using halted
    split
    · next rest next => exact .ending running (.inl next)
    · next command rest goesOn next =>
      have taken : system.input? .takeCommand = some (.command command) := by
        simp [input?, running, next]
      have handled := Turn.handled "" taken (fun ends => goesOn (Input.command.inj ends))
      rw [without, next] at handled
      exact handled
    · next next =>
      split
      · exact turn_rfl (by simp [input?, next])
      · have ending := Turn.ending running (.inr ⟨next, rfl⟩)
        rw [← next] at ending
        exact ending

theorem turn_takeEvent (system : System) (sessionId : String) :
    Turn system (.takeEvent sessionId) (system.takeEvent sessionId) := by
  unfold takeEvent
  split
  · next halted =>
    have halted : system.isRunning = false := by simpa using halted
    have nothing : system.input? (.takeEvent sessionId) = none := by simp [input?, halted]
    exact turn_rfl nothing
  · next halted =>
    have running : system.isRunning = true := by simpa using halted
    split
    · next event rest next =>
      have taken : system.input? (.takeEvent sessionId) = some (.event event) := by
        simp [input?, running, next]
      have handled := Turn.handled sessionId taken (by simp)
      rw [without, next] at handled
      exact handled
    · next next => exact turn_rfl (by simp [input?, next])

theorem turn_runBatch (system : System) (index : Nat) :
    Turn system (.runBatch index) (system.runBatch index, []) := by
  unfold runBatch
  split
  · exact turn_rfl rfl
  · split
    · exact turn_rfl rfl
    · split
      · exact turn_rfl rfl
      · exact .idle rfl system.credential system.handles _ _
    · split
      · exact .idle rfl system.credential system.handles _ system.results
      · exact turn_submit rfl _ _

theorem turn_step (system : System) (move : Move) : Turn system move (system.step move) := by
  cases move with
  | takeCommand => exact turn_takeCommand system
  | takeEvent sessionId => exact turn_takeEvent system sessionId
  | submit ask => exact turn_submit rfl ask system.batches
  | startBatch requests => exact .idle rfl system.credential system.handles _ system.results
  | runBatch index => exact turn_runBatch system index
  | cloneHandle => exact .idle rfl system.credential _ system.batches system.results
  | dropHandle => exact .idle rfl system.credential _ system.batches system.results
  | setCredential credential =>
    exact .idle rfl credential system.handles system.batches system.results
  | world move => exact .surroundings move

/-- The move makes the loop handle this input. -/
def Takes (input : Input) (system : System) (move : Move) : Prop :=
  system.input? move = some input

/-- A move that takes an input does what its handler says. -/
theorem Turn.of_takes {system : System} {move : Move} {after : System × List Record}
    {input : Input} (turn : Turn system move after) (taken : Takes input system move)
    (goesOn : input ≠ .command .shutdown) :
    ∃ sessionId, after = carryOut (system.without input)
      (system.client.handle system.credential sessionId input).1
      (system.client.handle system.credential sessionId input).2 := by
  cases turn with
  | handled sessionId given _ =>
    rw [Takes, given] at taken
    cases taken
    exact ⟨sessionId, rfl⟩
  | ending running next =>
    rcases next with next | ⟨next, -⟩
    · simp only [Takes, input?, running, next, List.head?_cons] at taken
      cases taken
      exact absurd rfl goesOn
    · simp only [Takes, input?, running, next, List.head?_nil] at taken
      cases taken
  | surroundings move => cases taken
  | submission nothing => rw [Takes, nothing] at taken; cases taken
  | idle nothing => rw [Takes, nothing] at taken; cases taken

/-- Taking an event leaves the loop running and the other events waiting. -/
theorem Turn.of_takes_event {system : System} {move : Move} {after : System × List Record}
    {event : Event} (turn : Turn system move after)
    (taken : Takes (.event event) system move) :
    after.1.isRunning = true ∧ after.1.credential = system.credential ∧
      after.1.world.events = system.world.events.tail := by
  obtain ⟨-, running, -⟩ := of_input?_event taken
  obtain ⟨sessionId, rfl⟩ := turn.of_takes taken (by simp)
  rw [isRunning_carryOut, credential_carryOut, world_carryOut, World.events_performAll]
  exact ⟨running, rfl, rfl⟩

/-! ### Runs -/

/-- Some move of the sequence is made in a state where it does this. -/
def Sometime (does : System → Move → Prop) : System → List Move → Prop
  | _, [] => False
  | system, move :: moves => does system move ∨ Sometime does (system.step move).1 moves

theorem sometime_append {does : System → Move → Prop} {system : System} {moves later : List Move} :
    Sometime does system (moves ++ later) ↔
      Sometime does system moves ∨ Sometime does (system.run moves).1 later := by
  induction moves generalizing system with
  | nil => simp [Sometime, run]
  | cons move moves ih => simp only [List.cons_append, Sometime, run, ih, or_assoc]

theorem sometime_concat {does : System → Move → Prop} {system : System} {moves : List Move}
    {move : Move} :
    Sometime does system (moves ++ [move]) ↔
      Sometime does system moves ∨ does (system.run moves).1 move := by
  rw [sometime_append, Sometime, Sometime, or_false]

theorem Sometime.mono {does might : System → Move → Prop} {system : System} {moves : List Move}
    (weaker : ∀ {system move}, does system move → might system move)
    (sometime : Sometime does system moves) : Sometime might system moves := by
  induction moves generalizing system with
  | nil => exact sometime
  | cons move moves ih => exact sometime.imp weaker ih

theorem sometime_iff_exists {does : System → Move → Prop} {system : System} {moves : List Move} :
    Sometime does system moves ↔
      ∃ earlier move later, moves = earlier ++ move :: later ∧ does (system.run earlier).1 move := by
  constructor
  · intro sometime
    induction moves generalizing system with
    | nil => cases sometime
    | cons first moves ih =>
      rcases sometime with now | sometime
      · exact ⟨[], first, moves, rfl, now⟩
      · obtain ⟨earlier, move, later, rfl, does⟩ := ih sometime
        exact ⟨first :: earlier, move, later, rfl, does⟩
  · rintro ⟨earlier, move, later, rfl, does⟩
    exact sometime_append.mpr (.inr (.inl does))

/-- What holds at first and is kept by every turn holds after every run. -/
theorem run_induction {P : System → Prop} {system : System} (first : P system)
    (step : ∀ {system move after}, Turn system move after → P system → P after.1)
    (moves : List Move) : P (system.run moves).1 := by
  induction moves generalizing system with
  | nil => exact first
  | cons move moves ih => exact ih (step (turn_step system move) first)

theorem run_concat (system : System) (moves : List Move) (move : Move) :
    (system.run (moves ++ [move])).1 = ((system.run moves).1.step move).1 := by
  rw [run_append]
  rfl

theorem records_run_concat (system : System) (moves : List Move) (move : Move) :
    (system.run (moves ++ [move])).2 =
      (system.run moves).2 ++ ((system.run moves).1.step move).2 := by
  rw [run_append]
  exact congrArg _ (List.append_nil _)

theorem filterMap_run_concat {β : Type} (seen : Record → Option β) (system : System)
    (moves : List Move) (move : Move) :
    (system.run (moves ++ [move])).2.filterMap seen =
      (system.run moves).2.filterMap seen ++
        ((system.run moves).1.step move).2.filterMap seen := by
  rw [records_run_concat, List.filterMap_append]

/-- Every record of a run is made by one of its moves. -/
theorem exists_move_of_record {system : System} {moves : List Move} {earlier later : List Record}
    {record : Record} (made : (system.run moves).2 = earlier ++ record :: later) :
    ∃ before move after prior rest, moves = before ++ move :: after ∧
      ((system.run before).1.step move).2 = prior ++ record :: rest ∧
      earlier = (system.run before).2 ++ prior ∧
      later = rest ++ (((system.run before).1.step move).1.run after).2 := by
  induction moves generalizing system earlier with
  | nil => exact absurd made.symm (by simp [run])
  | cons first moves ih =>
    have made : (system.step first).2 ++ ((system.step first).1.run moves).2 =
        earlier ++ record :: later := made
    have goOn : ∀ prior : List Record, earlier = (system.step first).2 ++ prior →
        ((system.step first).1.run moves).2 = prior ++ record :: later →
        ∃ before move after prior rest, first :: moves = before ++ move :: after ∧
          ((system.run before).1.step move).2 = prior ++ record :: rest ∧
          earlier = (system.run before).2 ++ prior ∧
          later = rest ++ (((system.run before).1.step move).1.run after).2 := by
      rintro prior rfl rest
      obtain ⟨before, move, after, within, left, rfl, stepped, rfl, rfl⟩ := ih rest
      exact ⟨first :: before, move, after, within, left, rfl, stepped,
        (List.append_assoc _ _ _).symm, rfl⟩
    rcases List.append_eq_append_iff.mp made with ⟨prior, same, rest⟩ | ⟨rest, here, parts⟩
    · exact goOn prior same rest
    · cases rest with
      | nil => exact goOn [] (by rw [here, List.append_nil, List.append_nil]) parts.symm
      | cons made rest =>
        obtain ⟨rfl, rfl⟩ := List.cons.inj parts
        exact ⟨[], first, moves, earlier, rest, rfl, here, rfl, rfl⟩

/-- As `run_induction`, for what ties the moves of a run to the state it ends in. -/
theorem history_induction {P : List Move → System → Prop} {system : System}
    (first : P [] system)
    (step : ∀ {history move}, P history (system.run history).1 →
      P (history ++ [move]) ((system.run history).1.step move).1)
    (moves : List Move) : P moves (system.run moves).1 := by
  have go : ∀ history, P history (system.run history).1 →
      P (history ++ moves) (system.run (history ++ moves)).1 := by
    induction moves with
    | nil =>
      intro history kept
      rw [List.append_nil]
      exact kept
    | cons move moves ih =>
      intro history kept
      have later := ih (history ++ [move]) (by rw [run_concat]; exact step kept)
      rwa [List.append_assoc] at later
  exact go [] first

/-- What is noted of the moves of a run, in order. -/
def noted {β : Type} (note? : System → Move → Option β) (system : System) : List Move → List β
  | [] => []
  | move :: moves => (note? system move).toList ++ noted note? (system.step move).1 moves

theorem mem_noted {β : Type} {note? : System → Move → Option β} {system : System}
    {moves : List Move} {note : β} :
    note ∈ system.noted note? moves ↔
      Sometime (fun system move => note? system move = some note) system moves := by
  induction moves generalizing system with
  | nil => simp [noted, Sometime]
  | cons move moves ih => simp [noted, Sometime, ih]

theorem noted_append {β : Type} (note? : System → Move → Option β) (system : System)
    (moves later : List Move) :
    system.noted note? (moves ++ later) =
      system.noted note? moves ++ (system.run moves).1.noted note? later := by
  induction moves generalizing system with
  | nil => rfl
  | cons move moves ih =>
    simp only [List.cons_append, noted, ih, run, List.append_assoc]

theorem noted_concat {β : Type} (note? : System → Move → Option β) (system : System)
    (moves : List Move) (move : Move) :
    system.noted note? (moves ++ [move]) =
      system.noted note? moves ++ (note? (system.run moves).1 move).toList := by
  rw [noted_append, noted, noted, List.append_nil]

theorem noted_filter {β : Type} (note? : System → Move → Option β) (p : β → Bool)
    (system : System) (moves : List Move) :
    system.noted (fun system move => (note? system move).filter p) moves =
      (system.noted note? moves).filter p := by
  induction moves generalizing system with
  | nil => rfl
  | cons move moves ih =>
    rw [noted, noted, ih, List.filter_append]
    congr 1
    cases note? system move with
    | none => rfl
    | some note => cases keeps : p note <;> simp [Option.filter_some, keeps]

end Liveboard.Session.System
