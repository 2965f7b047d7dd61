/-
  Liveboard/Proofs/Session/Sending.lean
  =====================================
  **What the loop offers to its queue.**

  Frames for the server are offered in the handshake of a link that opens, for the resumption
  of a chat, for the effects of a frame, and for what callers send.  `Sends` says of every
  input what becomes of the connection and what is offered by it: the handshake goes into
  the queue of the link that opens, and everything else is an action that the input issues,
  placed in the active chat and sent over the connection as it is.
-/
import Liveboard.Proofs.Session.Agreement
import Liveboard.Proofs.Session.Display
import Liveboard.Proofs.Session.Queues

namespace Liveboard

namespace Action

/-- The action concerns a chat and does not say which. -/
def isUnplaced : Action → Bool
  | chatMessage _ none | getSaved none | save none _ _ _ | combine none _ | condense none => true
  | _ => false

/-- An action that does not name its chat is sent with the active one. -/
theorem chatId_of_unplaced {action : Action} (unplaced : action.isUnplaced = true)
    (active : Option String) :
    (action.scopedTo active).payload.get? "chat_id" = some (textOrNull active) := by
  unfold isUnplaced at unplaced
  split at unplaced <;> first | rfl | cases unplaced

end Action

namespace Session

variable {order : Order}

def Order.isOffer : Order → Bool
  | .offer _ _ => true
  | _ => false

def Effect.action? : Effect → Option Action
  | .send action => some action
  | _ => none

theorem filterMap_offered?_filter (index : Nat) (orders : List Order) :
    (orders.filter Order.isOffer).filterMap (Order.offered? index) =
      orders.filterMap (Order.offered? index) := by
  induction orders with
  | nil => rfl
  | cons order orders ih =>
    cases offers : order.isOffer with
    | true => rw [List.filter_cons_of_pos offers, List.filterMap_cons, List.filterMap_cons, ih]
    | false =>
      have none : order.offered? index = none := by
        cases order <;> first | rfl | cases offers
      rw [List.filter_cons_of_neg (by simp [offers]), ih, List.filterMap_cons_none none]

/-- By itself a frame asks for the history alone. -/
theorem Board.eq_getHistory_of_send {board : Board} {frame : Frame} {action : Action}
    (asked : .send action ∈ (board.apply frame).2) : action = .getHistory := by
  cases frame with
  | chatCreated chatId =>
    simp only [apply, List.mem_cons, List.not_mem_nil, or_false] at asked
    rcases asked with reset | send
    · cases reset
    · cases send
      rfl
  | chatLoaded chatId messages =>
    rcases List.mem_cons.mp asked with reset | asked
    · cases reset
    · obtain ⟨index, -, render⟩ := List.mem_map.mp asked
      cases render
  | systemConfig agents => cases agents <;> cases asked
  | agentRegistered agent =>
    simp only [apply] at asked
    split at asked <;> cases asked
  | _ => simp [apply] at asked

namespace Client

variable {client : Client} {credential : Option String} {sessionId : String} {input : Input}

/-- The actions that an input has the loop send, as they are before they are placed. -/
def issued (client : Client) : Input → List Action
  | .command (.send action) | .command (.save action _) => [action]
  | .command (.chat content _) => [.chatMessage content none]
  | .command _ => []
  | .event (.wake (.resume generation chatId)) =>
    if generation = client.connection.generation then [.loadChat chatId] else []
  | .event event =>
    (client.reads? (.event event)).toList.flatMap fun frame =>
      (client.board.apply frame).2.filterMap Effect.action?

/-- What an input makes of the connection, with what is offered by it. -/
inductive Sends (client : Client) (credential : Option String) (sessionId : String) :
    Input → Connection → List Order → Prop where
  | opens {channel : Nat} (live : client.connection.isLive = true) :
      Sends client credential sessionId
        (.event (.link client.connection.generation (.opened channel)))
        (client.connection.onOpen channel sessionId client.board.activeChat).1
        [.offer channel (.registration sessionId (client.connection.token.getD "")
            client.connection.settings.capabilities),
          .offer channel (.ofAction .getHistory (some sessionId))]
  | issues {input : Input} :
      Sends client credential sessionId input client.connection
        ((client.issued input).flatMap client.send)
  | starts {input : Input} {token : String} (connects : input.connects = true)
      (given : credential = some token) (free : client.connection.isLive = false) :
      Sends client credential sessionId input (client.connection.attempting token) []
  | shuts {input : Input} {connection : Connection} (agrees : connection.Agrees)
      (free : connection.isLive = false) :
      Sends client credential sessionId input connection []

theorem send_eq_nil (shut : client.connection.isOpen = false) (action : Action) :
    client.send action = [] := by
  rw [send, Connection.send, shut, if_neg Bool.false_ne_true]

theorem filter_send (client : Client) (action : Action) :
    (client.send action).filter Order.isOffer = client.send action := by
  rw [List.filter_eq_self]
  intro order ordered
  unfold send Connection.send at ordered
  split at ordered
  · obtain ⟨channel, -, rfl⟩ := List.mem_map.mp ordered
    rfl
  · cases ordered

theorem filter_settlements (settled : List (Settlement Ticket SavedComponent)) :
    (settlements settled).filter Order.isOffer = [] := by
  apply filter_eq_nil_of_false
  intro order ordered
  obtain ⟨settlement, -, rfl⟩ := List.mem_map.mp ordered
  rfl

theorem offered_perform (client : Client) (effect : Effect) :
    (client.perform effect).2.filter Order.isOffer =
      effect.action?.toList.flatMap client.send := by
  cases effect with
  | send action =>
    rw [Effect.action?, Option.toList_some, List.flatMap_singleton]
    exact filter_send client action
  | resolveSave component => exact filter_settlements _
  | rejectSave reason => exact filter_settlements _
  | render target =>
    apply filter_eq_nil_of_false
    intro order ordered
    obtain ⟨forest, -, rfl⟩ := List.mem_map.mp ordered
    rfl
  | _ => rfl

theorem offered_performAll (client : Client) (effects : List Effect) :
    (client.performAll effects).2.filter Order.isOffer =
      (effects.filterMap Effect.action?).flatMap client.send := by
  induction effects generalizing client with
  | nil => rfl
  | cons effect effects ih =>
    have same : (client.perform effect).1.send = client.send := by
      funext action
      rw [send, connection_perform, board_perform, send]
    have later := ih (client.perform effect).1
    rw [same] at later
    have first := offered_perform client effect
    simp only [performAll, List.filter_append, later, first]
    cases action : effect.action? <;> simp [action]

theorem offered_dispatch {text : String} :
    (client.dispatch text).2.filter Order.isOffer =
      ((Frame.parse text).toOption.toList.flatMap fun frame =>
        (client.board.apply frame).2.filterMap Effect.action?).flatMap client.send := by
  unfold dispatch
  cases Frame.parse text with
  | error fault => rfl
  | ok frame =>
    simp only [List.filter_append, offered_performAll, Except.toOption, Option.toList_some,
      List.flatMap_singleton]
    refine (List.append_nil _).trans ?_
    rw [List.flatMap_def, List.flatMap_def]
    congr 1
    -- what a frame sends concerns no chat, so the board it left does not matter
    apply List.map_congr_left
    intro action sent
    obtain ⟨effect, asked, isSend⟩ := List.mem_filterMap.mp sent
    cases effect with
    | send asked' =>
      cases isSend
      cases Board.eq_getHistory_of_send asked
      rfl
    | _ => cases isSend

/-- An input that issues nothing may leave the connection alone. -/
theorem sends_nothing (nothing : client.issued input = []) :
    Sends client credential sessionId input client.connection [] := by
  have issues : Sends client credential sessionId input client.connection
    ((client.issued input).flatMap client.send) := .issues
  rwa [nothing] at issues

theorem sends_action {action : Action} (only : client.issued input = [action]) :
    Sends client credential sessionId input client.connection (client.send action) := by
  have issues : Sends client credential sessionId input client.connection
    ((client.issued input).flatMap client.send) := .issues
  rwa [only, List.flatMap_singleton] at issues

theorem sends_connect (connects : input.connects = true) (nothing : client.issued input = []) :
    Sends client credential sessionId input (client.connect credential).1.connection
      ((client.connect credential).2.filter Order.isOffer) := by
  cases credential with
  | none => exact sends_nothing nothing
  | some token =>
    cases live : client.connection.isLive with
    | true =>
      simp only [connect, Connection.connect_of_isLive live]
      exact sends_nothing nothing
    | false =>
      simp only [connect, Connection.connect_of_not_isLive live]
      exact .starts connects rfl live

theorem filter_onOpen (connection : Connection) (channel : Nat) (sessionId : String)
    (activeChat : Option String) :
    (connection.onOpen channel sessionId activeChat).2.filter Order.isOffer =
      [.offer channel (.registration sessionId (connection.token.getD "")
          connection.settings.capabilities),
        .offer channel (.ofAction .getHistory (some sessionId))] := by
  rw [Connection.orders_onOpen]
  cases connection.outbound <;> cases activeChat <;> rfl

theorem filter_onClose (connection : Connection) :
    connection.onClose.2.filter Order.isOffer = [] := by
  cases outbound : connection.outbound <;> cases link : connection.link <;>
    simp [Connection.onClose, Connection.dropLink, Order.isOffer, outbound, link]

theorem filter_disconnect (connection : Connection) :
    connection.disconnect.2.filter Order.isOffer = [] := by
  cases outbound : connection.outbound <;> cases link : connection.link <;>
    simp [Connection.disconnect, Connection.dropLink, Order.isOffer, outbound, link]

theorem filter_hangUp (client : Client) (failure : Failure) :
    (client.hangUp failure).2.filter Order.isOffer = [] := by
  simp only [hangUp, List.filter_append, filter_disconnect, filter_settlements, List.append_nil]

theorem sends_onNews (generation : Nat) (news : LinkNews) :
    Sends client credential sessionId (.event (.link generation news))
      (client.onNews generation news sessionId).1.connection
      ((client.onNews generation news sessionId).2.filter Order.isOffer) := by
  cases given : client.dispatches? (.link generation news) with
  | some dispatch =>
    have issued : client.issued (.event (.link generation news)) =
        (Frame.parse dispatch.text).toOption.toList.flatMap fun frame =>
          (client.board.apply frame).2.filterMap Effect.action? := by
      simp only [Client.issued, reads?, given, Option.bind_some]
    rw [onNews_of_dispatches given, connection_dispatch, offered_dispatch, ← issued]
    exact .issues
  | none =>
    have nothing : client.issued (.event (.link generation news)) = [] := by
      simp only [issued, reads?, given, Option.bind_none]
      rfl
    have handled := Connection.handled_handle client.connection generation news sessionId
      client.board.activeChat
    unfold onNews
    revert handled
    generalize client.connection.handle generation news sessionId client.board.activeChat = result
    intro handled
    cases handled with
    | stale channels late =>
      have silent : (channels.map Order.release).filter Order.isOffer = [] := by
        apply filter_eq_nil_of_false
        intro order ordered
        obtain ⟨channel, -, rfl⟩ := List.mem_map.mp ordered
        rfl
      simp only [silent]
      exact sends_nothing nothing
    | opened current live =>
      subst current
      simp only [filter_onOpen]
      exact .opens live
    | frame current live =>
      rw [current, dispatches?_of_current live] at given
      cases given
    | closed current live final =>
      simp only [filter_onClose]
      exact .shuts (Connection.keeps_onClose client.connection).agrees rfl

theorem sends_onWake (wake : Wake) :
    Sends client credential sessionId (.event (.wake wake))
      (client.onWake credential wake).1.connection
      ((client.onWake credential wake).2.filter Order.isOffer) := by
  cases wake with
  | reconnect => exact sends_connect rfl rfl
  | resume generation chatId =>
    have offered : (client.connection.resume generation chatId).filter Order.isOffer =
        (client.issued (.event (.wake (.resume generation chatId)))).flatMap client.send := by
      simp only [Connection.resume, issued, beq_iff_eq]
      split
      · rw [List.flatMap_singleton]
        exact filter_send client (.loadChat chatId)
      · rfl
    simp only [onWake, offered]
    exact .issues
  | saveDeadline request =>
    simp only [onWake, filter_settlements]
    exact sends_nothing rfl
  | errorExpiry topic token =>
    simp only [onWake]
    split <;> exact sends_nothing rfl

theorem sends_onCommand (command : Command) :
    Sends client credential sessionId (.command command)
      (client.onCommand credential command).1.connection
      ((client.onCommand credential command).2.filter Order.isOffer) := by
  cases command with
  | connect => exact sends_connect rfl rfl
  | disconnect =>
    simp only [onCommand, filter_hangUp]
    exact .shuts (Connection.keeps_disconnect client.connection).agrees rfl
  | shutdown => exact sends_nothing rfl
  | send action =>
    simp only [onCommand, filter_send]
    exact sends_action rfl
  | chat content ticket =>
    have sends : Sends client credential sessionId (.command (.chat content ticket))
        client.connection (client.send (.chatMessage content none)) := sends_action rfl
    simp only [onCommand, chat]
    split
    · have quiet : [Order.publish (client.board.pushUserMessage content),
          .answer ticket true].filter Order.isOffer = [] := rfl
      rw [List.filter_append, filter_send, quiet, List.append_nil]
      exact sends
    · next shut =>
      rw [send_eq_nil (by simpa using shut)] at sends
      exact sends
  | save action ticket =>
    have sends : Sends client credential sessionId (.command (.save action ticket))
        client.connection (client.send action) := sends_action rfl
    simp only [onCommand, save]
    split
    · rw [List.filter_cons_of_neg Bool.false_ne_true, filter_send]
      exact sends
    · next shut =>
      rw [send_eq_nil (by simpa using shut)] at sends
      exact sends

/-- Every input opens a link with the handshake, sends what it issues over the connection as
    it is, or offers nothing. -/
theorem sends_handle (client : Client) (credential : Option String) (sessionId : String)
    (input : Input) :
    Sends client credential sessionId input
      (client.handle credential sessionId input).1.connection
      ((client.handle credential sessionId input).2.filter Order.isOffer) := by
  cases input with
  | command command => exact sends_onCommand command
  | event event =>
    rcases event with ⟨generation, news⟩ | wake
    · exact sends_onNews generation news
    · exact sends_onWake wake

/-! ### What an input issues -/

theorem issued_of_reads {frame : Frame} (read : client.reads? input = some frame) :
    client.issued input = (client.board.apply frame).2.filterMap Effect.action? := by
  rcases input with command | ⟨generation, news⟩ | wake
  · cases read
  · simp only [issued, read, Option.toList_some, List.flatMap_singleton]
  · cases wake <;> cases read

/-- An input that issues an action for the active chat does not change which chat that is. -/
theorem activeChat_of_unplaced {action : Action} (issued : action ∈ client.issued input)
    (unplaced : action.isUnplaced = true) :
    (client.handle credential sessionId input).1.board.activeChat = client.board.activeChat := by
  have displays := client.displays_handle credential sessionId input
  generalize (client.handle credential sessionId input).1.board = board at displays
  generalize (client.handle credential sessionId input).2.filter Order.isDisplay = orders
    at displays
  cases displays with
  | frame read =>
    rw [issued_of_reads read] at issued
    obtain ⟨effect, asked, isSend⟩ := List.mem_filterMap.mp issued
    cases effect with
    | send sent =>
      cases isSend
      cases Board.eq_getHistory_of_send asked
      cases unplaced
    | _ => cases isSend
  | message isOpen => rfl
  | expiry shown => cases issued
  | still unread late => rfl

/-- Over a connection whose fields agree, actions go into the queue that it holds. -/
theorem offered_sendAll (agrees : client.connection.Agrees) (index : Nat)
    (actions : List Action) :
    (actions.flatMap client.send).filterMap (Order.offered? index) =
      if client.connection.outbound = some index then
        actions.map fun action =>
          .ofAction (action.scopedTo client.board.activeChat) client.connection.sessionId
      else [] := by
  induction actions with
  | nil => simp
  | cons action actions ih =>
    rw [List.flatMap_cons, List.filterMap_append, ih, send, Connection.send, ← agrees.outbound,
      Connection.offer]
    cases client.connection.outbound with
    | none => rfl
    | some channel =>
      by_cases same : channel = index
      · simp [Order.offered?, same]
      · simp [Order.offered?, same]

end Client

/-- The loop ends without a word to the server. -/
theorem System.filter_lastOrders (system : System) :
    system.lastOrders.filter Order.isOffer = [] := by
  have hangsUp := Client.filter_hangUp system.client .clientClosed
  rw [List.filter_eq_nil_iff] at hangsUp ⊢
  intro order ordered
  rcases System.hangUp_or_settle_of_mem_lastOrders ordered with ordered | ⟨ticket, rfl⟩
  · exact hangsUp order ordered
  · exact Bool.false_ne_true

end Session
end Liveboard
