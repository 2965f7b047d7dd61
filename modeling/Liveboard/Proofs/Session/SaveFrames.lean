/-
  Liveboard/Proofs/Session/SaveFrames.lean
  ========================================
  **Asking the server for a save, and its answer.**

  A save is a command that waits in the queue, then a frame for the server, then an answer
  among the events.  A frame that asks for a save is queued only when such a command is
  taken, one at most for each (`Turn.saveFrames`), and a caller is told that its component
  was saved only when an answer is taken that says so (`Turn.confirmations`).
-/
import Liveboard.Proofs.Session.OpenSaves
import Liveboard.Proofs.Session.Sending

namespace Liveboard

def Action.isSave : Action → Bool
  | save _ _ _ _ => true
  | _ => false

/-- The frame asks the server to save a component. -/
def Envelope.isSave (envelope : Envelope) : Bool := envelope.action == some "save_component"

theorem Envelope.isSave_ofAction (action : Action) (sessionId : Option String) :
    (ofAction action sessionId).isSave = action.isSave := by
  cases action <;> rfl

theorem Action.isSave_scopedTo (action : Action) (active : Option String) :
    (action.scopedTo active).isSave = action.isSave := by
  cases action <;> rfl

namespace Session

/-- The action that a command asks to send. -/
def Command.action? : Command → Option Action
  | .send action | .save action _ => some action
  | _ => none

/-- The command asks for a save, whether anybody waits for the outcome or not. -/
def Command.isSave : Command → Bool
  | .save _ _ => true
  | .send action => action.isSave
  | _ => false

theorem Command.isSave_of_saver? {command : Command} {ticket : Ticket}
    (waits : command.saver? = some ticket) : command.isSave = true := by
  cases command with
  | save => rfl
  | _ => cases waits

def Record.saveFrame? : Record → Option Envelope
  | .queued _ envelope => if envelope.isSave then some envelope else none
  | _ => none

def Order.saveFrame? : Order → Option Envelope
  | .offer _ envelope => if envelope.isSave then some envelope else none
  | _ => none

/-- The answer to a save, as the server gives it. -/
def Frame.answer? : Frame → Option (Except Failure SavedComponent)
  | .saved component => some (.ok component)
  | .saveError reason => some (.error (.rejected reason))
  | _ => none

def Event.answer? : Event → Option (Except Failure SavedComponent)
  | .link _ (.reported (.frame text)) => (Frame.parse text).toOption.bind Frame.answer?
  | _ => none

/-! ### Frames that ask for a save -/

theorem World.saveFrames_perform (world : World) (order : Order) :
    ((world.perform order).2.filterMap Record.saveFrame?).Sublist order.saveFrame?.toList := by
  cases order with
  | offer channel envelope =>
    simp only [perform]
    split
    · cases saves : envelope.isSave <;> simp [Record.saveFrame?, Order.saveFrame?, saves]
    · exact List.nil_sublist _
  | _ => exact List.nil_sublist _

/-- What is queued was offered. -/
theorem World.saveFrames_performAll (world : World) (orders : List Order) :
    ((world.performAll orders).2.filterMap Record.saveFrame?).Sublist
      (orders.filterMap Order.saveFrame?) := by
  induction orders generalizing world with
  | nil => exact List.nil_sublist _
  | cons order orders ih =>
    have parts : (order :: orders).filterMap Order.saveFrame? =
        order.saveFrame?.toList ++ orders.filterMap Order.saveFrame? := by
      cases saves : order.saveFrame? <;> simp [saves]
    simp only [performAll, List.filterMap_append]
    rw [parts]
    exact (saveFrames_perform world order).append (ih _)

theorem filterMap_saveFrame?_filter (orders : List Order) :
    (orders.filter Order.isOffer).filterMap Order.saveFrame? =
      orders.filterMap Order.saveFrame? := by
  induction orders with
  | nil => rfl
  | cons order orders ih =>
    cases order with
    | offer channel envelope =>
      rw [List.filter_cons_of_pos rfl, List.filterMap_cons, List.filterMap_cons, ih]
    | _ => rw [List.filter_cons_of_neg Bool.false_ne_true, ih, List.filterMap_cons_none rfl]

theorem World.saveFrames_deafen (world : World) :
    world.deafen.2.filterMap Record.saveFrame? = [] := by
  obtain ⟨orders, released, same⟩ := exists_deafen world
  have none : orders.filterMap Order.saveFrame? = [] := by
    refine List.filterMap_eq_nil_iff.mpr fun order ordered => ?_
    obtain ⟨channel, rfl⟩ := released order ordered
    rfl
  have queued := saveFrames_performAll { world with events := [], isListening := false } orders
  rw [none] at queued
  rw [same]
  exact List.eq_nil_of_sublist_nil queued

namespace Client

variable {client : Client} {credential : Option String} {sessionId : String} {input : Input}

theorem saveFrames_send (client : Client) (action : Action) :
    ((client.send action).filterMap Order.saveFrame?).Sublist
      (if action.isSave then
        [.ofAction (action.scopedTo client.board.activeChat) client.connection.sessionId]
      else []) := by
  unfold send Connection.send
  split
  · rw [Connection.offer]
    cases client.connection.outbound with
    | none => exact List.nil_sublist _
    | some channel =>
      cases saves : action.isSave <;>
        simp [Order.saveFrame?, Envelope.isSave_ofAction, Action.isSave_scopedTo, saves]
  · exact List.nil_sublist _

/-- What a frame or the resumption of a chat has the loop send is no save. -/
theorem isSave_of_issued_event {event : Event} {action : Action}
    (issued : action ∈ client.issued (.event event)) : action.isSave = false := by
  have of_reads : ∀ {frame}, action ∈ (client.board.apply frame).2.filterMap Effect.action? →
      action.isSave = false := by
    intro frame issued
    obtain ⟨effect, asked, isSend⟩ := List.mem_filterMap.mp issued
    cases effect with
    | send sent =>
      cases isSend
      cases Board.eq_getHistory_of_send asked
      rfl
    | _ => cases isSend
  cases read : client.reads? (.event event) with
  | some frame =>
    rw [issued_of_reads read] at issued
    exact of_reads issued
  | none =>
    rcases event with ⟨generation, news⟩ | wake
    · simp only [Client.issued, read] at issued
      cases issued
    · cases wake with
      | resume generation chatId =>
        simp only [Client.issued] at issued
        split at issued
        · cases List.mem_singleton.mp issued
          rfl
        · cases issued
      | _ => cases issued

/-- What an input asks the server to save: what a command asks for, and once. -/
theorem saveFrames_issued (client : Client) (input : Input) :
    ((client.issued input).flatMap client.send).filterMap Order.saveFrame? = [] ∨
      ∃ command action, input = .command command ∧ command.isSave = true ∧
        command.action? = some action ∧ client.issued input = [action] := by
  have silent : ∀ {action : Action}, action.isSave = false →
      (client.send action).filterMap Order.saveFrame? = [] := by
    intro action other
    have part := saveFrames_send client action
    rw [other, if_neg Bool.false_ne_true] at part
    exact List.eq_nil_of_sublist_nil part
  cases input with
  | command command =>
    cases command with
    | send action =>
      cases saves : action.isSave with
      | true => exact .inr ⟨_, _, rfl, saves, rfl, rfl⟩
      | false =>
        refine .inl ?_
        rw [issued, List.flatMap_singleton]
        exact silent saves
    | save action ticket => exact .inr ⟨_, _, rfl, rfl, rfl, rfl⟩
    | chat content ticket =>
      refine .inl ?_
      rw [issued, List.flatMap_singleton]
      exact silent rfl
    | _ => exact .inl rfl
  | event event =>
    refine .inl ?_
    rw [List.filterMap_eq_nil_iff]
    intro order ordered
    obtain ⟨action, issued, sent⟩ := List.mem_flatMap.mp ordered
    have none := silent (isSave_of_issued_event issued)
    exact List.filterMap_eq_nil_iff.mp none order sent

end Client

/-! ### Answers -/

/-- The result is the word of the server, and no finding of the client. -/
def isAnswer : Except Failure SavedComponent → Bool
  | .ok _ | .error (.rejected _) => true
  | _ => false

/-- The answer that an order passes on to the caller. -/
def Order.answer? : Order → Option (Except Failure SavedComponent)
  | .settle _ result => if isAnswer result then some result else none
  | _ => none

def Effect.answer? : Effect → Option (Except Failure SavedComponent)
  | .resolveSave component => some (.ok component)
  | .rejectSave reason => some (.error (.rejected reason))
  | _ => none

theorem Order.IsOwn.answer?_eq_none {order : Order} (own : order.IsOwn) : order.answer? = none := by
  cases own with
  | outward outward => cases order <;> first | rfl | cases outward
  | @failed ticket failure own =>
    cases failure with
    | rejected reason => exact absurd rfl (own reason)
    | _ => rfl
  | _ => rfl

theorem Board.answers_apply (board : Board) (frame : Frame) :
    (board.apply frame).2.filterMap Effect.answer? = (Frame.answer? frame).toList := by
  cases frame with
  | systemConfig agents => cases agents <;> rfl
  | agentRegistered agent =>
    simp only [apply]
    split <;> rfl
  | chatLoaded chatId messages =>
    refine List.filterMap_eq_nil_iff.mpr fun effect asked => ?_
    rcases List.mem_cons.mp asked with rfl | asked
    · rfl
    · obtain ⟨index, -, rfl⟩ := List.mem_map.mp asked
      rfl
  | _ => rfl

namespace Client

variable {client : Client} {credential : Option String} {sessionId : String} {input : Input}
  {order : Order} {result : Except Failure SavedComponent}

theorem answer?_of_mem_settle {given : Except Failure SavedComponent}
    (ordered : order ∈ settlements (client.saves.settle given).2)
    (answers : order.answer? = some result) : given = result := by
  obtain ⟨settlement, settled, rfl⟩ := List.mem_map.mp ordered
  rw [Confirmations.result_of_mem_settle settled] at answers
  simp only [Order.answer?] at answers
  split at answers
  · exact Option.some.inj answers
  · cases answers

theorem answer?_of_mem_perform {effect : Effect} (ordered : order ∈ (client.perform effect).2)
    (answers : order.answer? = some result) : effect.answer? = some result := by
  cases effect with
  | send action =>
    rw [(isOwn_of_mem_send ordered).answer?_eq_none] at answers
    cases answers
  | resolveSave component => rw [← answer?_of_mem_settle ordered answers]; rfl
  | rejectSave reason => rw [← answer?_of_mem_settle ordered answers]; rfl
  | render target =>
    obtain ⟨forest, -, rfl⟩ := List.mem_map.mp ordered
    cases answers
  | _ =>
    cases List.mem_singleton.mp ordered
    cases answers

theorem answer?_of_mem_performAll {effects : List Effect}
    (ordered : order ∈ (client.performAll effects).2)
    (answers : order.answer? = some result) : result ∈ effects.filterMap Effect.answer? := by
  induction effects generalizing client with
  | nil => cases ordered
  | cons effect effects ih =>
    rcases List.mem_append.mp ordered with ordered | ordered
    · exact List.mem_filterMap.mpr
        ⟨effect, List.mem_cons_self, answer?_of_mem_perform ordered answers⟩
    · obtain ⟨later, asked, same⟩ := List.mem_filterMap.mp (ih ordered)
      exact List.mem_filterMap.mpr ⟨later, List.mem_cons_of_mem _ asked, same⟩

theorem answer?_of_mem_dispatch {text : String} {frame : Frame}
    (parsed : Frame.parse text = .ok frame) (ordered : order ∈ (client.dispatch text).2)
    (answers : order.answer? = some result) : Frame.answer? frame = some result := by
  simp only [dispatch, parsed] at ordered
  rcases List.mem_append.mp ordered with ordered | ordered
  · have among := answer?_of_mem_performAll ordered answers
    rw [Board.answers_apply] at among
    exact Option.mem_toList.mp among
  · cases List.mem_singleton.mp ordered
    cases answers

/-- A caller is given an answer only when a frame is read that brings it. -/
theorem reads?_of_answer (ordered : order ∈ (client.handle credential sessionId input).2)
    (answers : order.answer? = some result) :
    ∃ frame, client.reads? input = some frame ∧ Frame.answer? frame = some result := by
  cases read : client.reads? input with
  | some frame =>
    obtain ⟨text, parsed, same⟩ := handle_of_reads read
    rw [same] at ordered
    exact ⟨frame, rfl, answer?_of_mem_dispatch parsed ordered answers⟩
  | none =>
    rcases isOwn_or_publish_of_unread read ordered with own | ⟨board, rfl⟩
    · rw [own.answer?_eq_none] at answers
      cases answers
    · cases answers

theorem answer?_of_reads {frame : Frame} (read : client.reads? input = some frame) :
    ∃ event, input = .event event ∧ event.answer? = Frame.answer? frame := by
  rcases input with command | ⟨generation, channel | event⟩ | wake
  · cases read
  · by_cases late : generation ≠ client.connection.generation ∨ client.connection.isLive = false
    · rw [reads?, dispatches?_of_late late] at read
      cases read
    · rw [not_or, Decidable.not_not, Bool.not_eq_false] at late
      obtain ⟨rfl, live⟩ := late
      rw [reads?, dispatches?_of_current live] at read
      cases read
  · by_cases late : generation ≠ client.connection.generation ∨ client.connection.isLive = false
    · rw [reads?, dispatches?_of_late late] at read
      cases read
    · rw [not_or, Decidable.not_not, Bool.not_eq_false] at late
      obtain ⟨rfl, live⟩ := late
      rw [reads?, dispatches?_of_current live] at read
      cases event with
      | frame text =>
        have parsed : (Frame.parse text).toOption = some frame := read
        refine ⟨_, rfl, ?_⟩
        rw [Event.answer?, parsed]
        rfl
      | _ => cases read
  · cases read

end Client

/-- The answer that a caller was given. -/
def Record.saveAnswer? : Record → Option (Except Failure SavedComponent)
  | .settled _ result => if isAnswer result then some result else none
  | _ => none

def Record.confirmation? : Record → Option SavedComponent
  | .settled _ (.ok component) => some component
  | _ => none

theorem Record.saveAnswer?_of_confirmation {record : Record} {component : SavedComponent}
    (confirms : record.confirmation? = some component) :
    record.saveAnswer? = some (.ok component) := by
  cases record with
  | settled ticket result =>
    cases result with
    | ok saved =>
      cases confirms
      rfl
    | error failure => cases confirms
  | _ => cases confirms

theorem World.answers_perform (world : World) (order : Order) :
    (world.perform order).2.filterMap Record.saveAnswer? = order.answer?.toList := by
  cases order with
  | offer channel envelope => simp only [perform]; split <;> rfl
  | settle ticket result =>
    cases answers : isAnswer result <;> simp [perform, Record.saveAnswer?, Order.answer?, answers]
  | _ => rfl

/-- The command for a save that is handed in. -/
def Input.save? : Input → Option Command
  | .command asked => if asked.isSave then some asked else none
  | .event _ => none

namespace System

variable {system : System} {move : Move} {after : System × List Record}

/-! ### One turn -/

/-- The command for a save that the loop takes by a move. -/
def takesSave? (system : System) (move : Move) : Option Command :=
  (system.input? move).bind Input.save?

/-- The commands for saves that wait. -/
def saveQueue (system : System) : List Command := system.commands.filter Command.isSave

theorem saveQueue_without {input : Input} (taken : Takes input system move) :
    system.saveQueue = input.save?.toList ++ (system.without input).saveQueue := by
  cases input with
  | command command =>
    obtain ⟨-, -, next⟩ := of_input?_command taken
    rw [saveQueue, next, List.filter_cons]
    simp only [Input.save?, without]
    split <;> rfl
  | event event => rfl

/-- Saves are taken in the order in which they were submitted; the end of the loop drops them. -/
theorem Turn.saveQueue (turn : Turn system move after) :
    system.saveQueue ++ ((system.submitted? after.1).toList.filter Command.isSave) =
        (system.takesSave? move).toList ++ after.1.saveQueue ∨
      after.1.isRunning = false ∧ after.1.saveQueue = [] ∧ system.takesSave? move = none ∧
        system.submitted? after.1 = none := by
  have nothing : ∀ {next : System}, next.commands.length ≤ system.commands.length →
      (system.submitted? next).toList.filter Command.isSave = [] := by
    intro next fewer
    rw [submitted?_eq_none fewer]
    rfl
  have still : system.input? move = none → ∀ {next : System}, next.commands = system.commands →
      system.saveQueue ++ ((system.submitted? next).toList.filter Command.isSave) =
        (system.takesSave? move).toList ++ next.saveQueue := by
    intro idle next same
    rw [nothing (Nat.le_of_eq (congrArg _ same)), takesSave?, idle, System.saveQueue,
      System.saveQueue, same]
    exact List.append_nil _
  cases turn with
  | @handled move input sessionId taken goesOn =>
    refine .inl ?_
    rw [saveQueue_without taken, takesSave?, taken, nothing, List.append_nil]
    · rw [System.saveQueue, System.saveQueue, commands_carryOut]
      rfl
    · rw [commands_carryOut]
      exact length_commands_without_le system input
  | @ending left running next =>
    refine .inr ⟨isRunning_stop _, ?_, ?_, ?_⟩
    · rw [System.saveQueue, commands_stop]
      rfl
    · rcases next with next | ⟨next, -⟩
      · simp only [takesSave?, input?, running, next]
        rfl
      · simp only [takesSave?, input?, running, next]
        rfl
    · exact submitted?_eq_none (by rw [commands_stop]; exact Nat.zero_le _)
  | surroundings move => exact .inl (still rfl rfl)
  | submission idle ask batches running =>
    refine .inl ?_
    rw [submitted?_eq_some rfl, takesSave?, idle, System.saveQueue, System.saveQueue,
      List.filter_append]
    rfl
  | idle nothing' => exact .inl (still nothing' rfl)

/-- Only a running loop is asked for anything. -/
theorem Turn.isRunning_of_submitted? (turn : Turn system move after) {command : Command}
    (submitted : system.submitted? after.1 = some command) : system.isRunning = true := by
  have nothing : ∀ {next : System}, next.commands.length ≤ system.commands.length →
      system.submitted? next = some command → system.isRunning = true := by
    intro next fewer submitted
    rw [submitted?_eq_none fewer] at submitted
    cases submitted
  cases turn with
  | @handled move input sessionId taken goesOn =>
    refine nothing ?_ submitted
    rw [commands_carryOut]
    exact length_commands_without_le system input
  | ending running => exact running
  | submission _ _ _ running => exact running
  | surroundings => exact nothing (Nat.le_refl _) submitted
  | idle => exact nothing (Nat.le_refl _) submitted

/-- A caller is given an answer when a frame is read that brings it. -/
theorem Turn.answers (turn : Turn system move after) {result : Except Failure SavedComponent}
    (told : result ∈ after.2.filterMap Record.saveAnswer?) :
    ∃ input frame, Takes input system move ∧ system.client.reads? input = some frame ∧
      Frame.answer? frame = some result := by
  cases turn with
  | @handled move input sessionId taken goesOn =>
    rw [records_carryOut, World.filterMap_performAll World.answers_perform] at told
    obtain ⟨order, ordered, answers⟩ := List.mem_filterMap.mp told
    obtain ⟨frame, read, brings⟩ := Client.reads?_of_answer ordered answers
    exact ⟨input, frame, taken, read, brings⟩
  | @ending left running next =>
    rw [records_stop, List.filterMap_append, World.filterMap_performAll World.answers_perform,
      World.filterMap_deafen World.answers_perform fun _ => rfl, List.append_nil] at told
    obtain ⟨order, ordered, answers⟩ := List.mem_filterMap.mp told
    rw [(isOwn_of_mem_lastOrders ordered).answer?_eq_none] at answers
    cases answers
  | _ => cases told

/-- A caller is told that its component was saved when an answer is taken that says so. -/
theorem Turn.confirmations (turn : Turn system move after) {component : SavedComponent}
    (told : component ∈ after.2.filterMap Record.confirmation?) :
    ∃ event, system.takes? move = some event ∧ event.answer? = some (.ok component) := by
  obtain ⟨record, recorded, confirms⟩ := List.mem_filterMap.mp told
  have answers := Record.saveAnswer?_of_confirmation confirms
  obtain ⟨input, frame, taken, read, brings⟩ :=
    turn.answers (List.mem_filterMap.mpr ⟨record, recorded, answers⟩)
  obtain ⟨event, rfl, same⟩ := Client.answer?_of_reads read
  exact ⟨event, takes?_eq_some_iff.mpr taken, same.trans brings⟩

/-- A frame that asks for a save is queued for a command that does, and one for each at most. -/
theorem Turn.saveFrames (turn : Turn system move after) :
    after.2.filterMap Record.saveFrame? = [] ∨
      ∃ command action active sessionId, Takes (.command command) system move ∧
        command.isSave = true ∧ command.action? = some action ∧
        after.2.filterMap Record.saveFrame? = [.ofAction (action.scopedTo active) sessionId] := by
  cases turn with
  | @handled move input sessionId taken goesOn =>
    have sends := system.client.sends_handle system.credential sessionId input
    have queued := World.saveFrames_performAll (system.without input).world
      (system.client.handle system.credential sessionId input).2
    rw [← filterMap_saveFrame?_filter] at queued
    rw [records_carryOut]
    generalize (system.client.handle system.credential sessionId input).2.filter Order.isOffer =
      offers at sends queued
    generalize (system.client.handle system.credential sessionId input).1.connection =
      connection at sends
    cases sends with
    | issues =>
      rcases system.client.saveFrames_issued input with silent |
        ⟨command, action, rfl, saves, asks, only⟩
      · rw [silent] at queued
        exact .inl (List.eq_nil_of_sublist_nil queued)
      · rw [only, List.flatMap_singleton] at queued
        have part := queued.trans (system.client.saveFrames_send action)
        split at part
        · rcases List.sublist_cons_iff.mp part with none | ⟨rest, one, none⟩
          · exact .inl (List.eq_nil_of_sublist_nil none)
          · cases List.eq_nil_of_sublist_nil none
            exact .inr ⟨command, action, _, _, taken, saves, asks, one⟩
        · exact .inl (List.eq_nil_of_sublist_nil part)
    | opens => exact .inl (List.eq_nil_of_sublist_nil queued)
    | starts => exact .inl (List.eq_nil_of_sublist_nil queued)
    | shuts => exact .inl (List.eq_nil_of_sublist_nil queued)
  | @ending left running next =>
    have last := World.saveFrames_performAll system.world
      (lastOrders { system with commands := left })
    rw [← filterMap_saveFrame?_filter, filter_lastOrders] at last
    rw [records_stop, List.filterMap_append, List.eq_nil_of_sublist_nil last,
      World.saveFrames_deafen]
    exact .inl rfl
  | surroundings move => exact .inl rfl
  | submission => exact .inl rfl
  | idle => exact .inl rfl

end System

end Session
end Liveboard
