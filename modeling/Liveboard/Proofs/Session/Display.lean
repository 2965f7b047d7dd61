/-
  Liveboard/Proofs/Session/Display.lean
  =====================================
  **What an input makes of the board, and what is drawn for it.**

  The board changes by a frame that is dispatched, by a message of the user, and by the
  expiry of an error text.  What is drawn, and when an error text is to go, only a frame
  decides: these orders carry out its effects on the board that it left
  (`Client.displays_handle`).  Orders in which no frame has a part are told apart from
  the start (`Order.IsOwn`).
-/
import Liveboard.Proofs.Session.Isolation
import Liveboard.Proofs.Session.Settling

namespace Liveboard.Session

variable {order : Order}

/-! ### Orders in which no frame has a part -/

/-- What the loop asks for by itself, or for a caller: neither the board nor a frame of the
    server has a part in it. -/
inductive Order.IsOwn : Order → Prop where
  | outward {order : Order} (outward : order.isOutward = true) : IsOwn order
  | attempt (generation : Nat) (url : String) : IsOwn (.attempt generation url)
  | endScope : IsOwn .endScope
  | arm (after : Nat) (wake : Wake) : IsOwn (.arm after wake)
  | answer (ticket : Ticket) (sent : Bool) : IsOwn (.answer ticket sent)
  /-- A save comes to nothing without the server having refused it. -/
  | failed (ticket : Ticket) {failure : Failure} (own : ∀ reason, failure ≠ .rejected reason) :
      IsOwn (.settle ticket (.error failure))

namespace Client

variable {client : Client} {credential : Option String}

theorem isOwn_of_mem_settlements {settled : List (Settlement Ticket SavedComponent)}
    {failure : Failure} (own : ∀ reason, failure ≠ .rejected reason)
    (failed : ∀ settlement ∈ settled, settlement.result = .error failure)
    (h : order ∈ settlements settled) : order.IsOwn := by
  obtain ⟨settlement, settled, rfl⟩ := List.mem_map.mp h
  rw [failed settlement settled]
  exact .failed _ own

theorem isOwn_of_mem_connect (h : order ∈ (client.connect credential).2) : order.IsOwn := by
  obtain ⟨-, -, rfl⟩ := Connection.of_mem_connect h
  exact .attempt _ _

theorem isOwn_of_mem_hangUp {failure : Failure} (own : ∀ reason, failure ≠ .rejected reason)
    (h : order ∈ (client.hangUp failure).2) : order.IsOwn := by
  rcases List.mem_append.mp h with h | h
  · rcases Connection.of_mem_disconnect h with rfl | outward
    · exact .endScope
    · exact .outward outward
  · refine isOwn_of_mem_settlements own (fun settlement settled => ?_) h
    obtain ⟨entry, -, rfl⟩ := List.mem_map.mp settled
    rfl

theorem isOwn_of_mem_send {action : Action} (h : order ∈ client.send action) : order.IsOwn :=
  .outward (Connection.isOutward_of_mem_send h)

theorem isOwn_of_mem_save {action : Action} {ticket : Ticket}
    (h : order ∈ (client.save action ticket).2) : order.IsOwn := by
  unfold save at h
  split at h
  · rcases List.mem_cons.mp h with rfl | h
    · exact .arm _ _
    · exact isOwn_of_mem_send h
  · rw [List.mem_singleton.mp h]
    exact .failed ticket fun reason same => nomatch same

/-- News of a link by which no frame is dispatched. -/
theorem isOwn_of_mem_onNews {generation : Nat} {news : LinkNews} {sessionId : String}
    (nothing : client.dispatches? (.link generation news) = none)
    (h : order ∈ (client.onNews generation news sessionId).2) : order.IsOwn := by
  have handled := Connection.handled_handle client.connection generation news sessionId
    client.board.activeChat
  unfold onNews at h
  revert handled h
  generalize client.connection.handle generation news sessionId client.board.activeChat = result
  intro h handled
  cases handled with
  | stale channels late =>
    obtain ⟨channel, -, rfl⟩ := List.mem_map.mp h
    exact .outward rfl
  | opened current live =>
    rcases Connection.of_mem_onOpen h with outward | ⟨chatId, -, rfl⟩
    · exact .outward outward
    · exact .arm _ _
  | frame current live =>
    rw [current, dispatches?_of_current live] at nothing
    cases nothing
  | closed current live final =>
    rcases Connection.of_mem_onClose h with outward | rfl
    · exact .outward outward
    · exact .arm _ _

theorem isOwn_of_mem_expire {request : Nat}
    (h : order ∈ settlements (client.saves.expire request).2) : order.IsOwn := by
  refine isOwn_of_mem_settlements ?_ (fun settlement => Confirmations.result_of_mem_expire) h
  exact fun reason same => nomatch same

end Client

theorem System.isOwn_of_mem_lastOrders {system : System} (h : order ∈ system.lastOrders) :
    order.IsOwn := by
  rcases hangUp_or_settle_of_mem_lastOrders h with h | ⟨ticket, rfl⟩
  · refine Client.isOwn_of_mem_hangUp ?_ h
    exact fun reason same => nomatch same
  · exact .failed ticket fun reason same => nomatch same

/-! ### Orders that display -/

/-- The order concerns the screen, or the time that an error text stays on it. -/
def Order.isDisplay : Order → Bool
  | .reset | .render _ _ | .armDetached _ _ => true
  | _ => false

theorem Order.IsOwn.not_isDisplay (own : order.IsOwn) : order.isDisplay = false := by
  cases own with
  | outward outward => cases order <;> first | rfl | cases outward
  | _ => rfl

/-- The orders that display an effect. -/
def Board.display (board : Board) (errorTtl : Nat) : Effect → List Order
  | .reset => [.reset]
  | .render target => (board.forest? target).toList.map (.render target)
  | .armExpiry topic token => [.armDetached errorTtl (.errorExpiry topic token)]
  | _ => []

/-- The orders that display a frame, on the board that it leaves. -/
def Board.displayAll (board : Board) (errorTtl : Nat) (frame : Frame) : List Order :=
  (board.apply frame).2.flatMap ((board.apply frame).1.display errorTtl)

theorem filter_eq_nil_of_false {keeps : Order → Bool} {orders : List Order}
    (silent : ∀ order ∈ orders, keeps order = false) : orders.filter keeps = [] := by
  rw [List.filter_eq_nil_iff]
  intro order ordered
  rw [silent order ordered]
  exact Bool.false_ne_true

namespace Client

variable {client : Client} {credential : Option String}

/-! ### Effects of a frame -/

@[simp] theorem board_perform (client : Client) (effect : Effect) :
    (client.perform effect).1.board = client.board := by
  cases effect <;> rfl

@[simp] theorem board_performAll (client : Client) (effects : List Effect) :
    (client.performAll effects).1.board = client.board := by
  induction effects generalizing client with
  | nil => rfl
  | cons effect effects ih =>
    have same := ih (client.perform effect).1
    rw [board_perform] at same
    exact same

theorem not_isDisplay_of_mem_settlements {settled : List (Settlement Ticket SavedComponent)}
    (h : order ∈ settlements settled) : order.isDisplay = false := by
  obtain ⟨settlement, -, rfl⟩ := List.mem_map.mp h
  rfl

theorem displayed_perform (client : Client) (effect : Effect) :
    (client.perform effect).2.filter Order.isDisplay =
      client.board.display client.connection.settings.errorTtl effect := by
  cases effect with
  | send action =>
    apply filter_eq_nil_of_false
    intro order ordered
    exact (isOwn_of_mem_send ordered).not_isDisplay
  | resolveSave component =>
    apply filter_eq_nil_of_false
    intro order ordered
    exact not_isDisplay_of_mem_settlements ordered
  | rejectSave reason =>
    apply filter_eq_nil_of_false
    intro order ordered
    exact not_isDisplay_of_mem_settlements ordered
  | armExpiry topic token => rfl
  | reset => rfl
  | render target =>
    apply List.filter_eq_self.mpr
    intro order ordered
    obtain ⟨forest, -, rfl⟩ := List.mem_map.mp ordered
    rfl

theorem displayed_performAll (client : Client) (effects : List Effect) :
    (client.performAll effects).2.filter Order.isDisplay =
      effects.flatMap (client.board.display client.connection.settings.errorTtl) := by
  induction effects generalizing client with
  | nil => rfl
  | cons effect effects ih =>
    have later := ih (client.perform effect).1
    rw [board_perform, connection_perform] at later
    rw [List.flatMap_cons, ← displayed_perform, ← later, ← List.filter_append]
    rfl

/-! ### One input -/

/-- The frame that an input brings, if it is heeded and can be read. -/
def reads? (client : Client) : Input → Option Frame
  | .event event =>
    (client.dispatches? event).bind fun dispatch => (Frame.parse dispatch.text).toOption
  | .command _ => none

/-- A frame that is read is dispatched, and that is all there is to the input. -/
theorem handle_of_reads {input : Input} {frame : Frame} (read : client.reads? input = some frame) :
    ∃ text, Frame.parse text = .ok frame ∧
      ∀ credential sessionId, client.handle credential sessionId input = client.dispatch text := by
  rcases input with command | ⟨generation, news⟩ | wake
  · cases read
  · obtain ⟨dispatch, given, parsed⟩ := Option.bind_eq_some_iff.mp read
    refine ⟨dispatch.text, ?_, fun credential => onNews_of_dispatches given⟩
    cases result : Frame.parse dispatch.text with
    | error fault =>
      rw [result] at parsed
      cases parsed
    | ok parsedFrame =>
      rw [result] at parsed
      cases parsed
      rfl
  · cases read

/-- Without a frame, nothing is asked for but what is the loop's own, and that the board is
    published. -/
theorem isOwn_or_publish_of_unread {input : Input} (unread : client.reads? input = none)
    {sessionId : String} (h : order ∈ (client.handle credential sessionId input).2) :
    order.IsOwn ∨ ∃ board, order = .publish board := by
  rcases input with command | ⟨generation, news⟩ | wake
  · cases command with
    | connect => exact .inl (isOwn_of_mem_connect h)
    | disconnect =>
      refine .inl (isOwn_of_mem_hangUp ?_ h)
      exact fun reason same => nomatch same
    | shutdown => cases h
    | send action => exact .inl (isOwn_of_mem_send h)
    | chat content ticket =>
      simp only [handle, onCommand, chat] at h
      split at h
      · rcases List.mem_append.mp h with h | h
        · exact .inl (isOwn_of_mem_send h)
        · rcases List.mem_cons.mp h with rfl | h
          · exact .inr ⟨_, rfl⟩
          · rw [List.mem_singleton.mp h]
            exact .inl (.answer ticket true)
      · rw [List.mem_singleton.mp h]
        exact .inl (.answer ticket false)
    | save action ticket => exact .inl (isOwn_of_mem_save h)
  · cases given : client.dispatches? (.link generation news) with
    | none => exact .inl (isOwn_of_mem_onNews given h)
    | some dispatch =>
      -- what was dispatched cannot be read, so that it is dropped
      have garbled : (Frame.parse dispatch.text).toOption = none := by
        rw [reads?, given] at unread
        exact unread
      rw [handle, onEvent, onNews_of_dispatches given, Client.dispatch] at h
      cases parsed : Frame.parse dispatch.text with
      | error fault =>
        rw [parsed] at h
        cases h
      | ok frame =>
        rw [parsed] at garbled
        cases garbled
  · cases wake with
    | reconnect => exact .inl (isOwn_of_mem_connect h)
    | resume generation chatId =>
      exact .inl (.outward (Connection.isOutward_of_mem_resume h))
    | saveDeadline request => exact .inl (isOwn_of_mem_expire h)
    | errorExpiry topic token =>
      simp only [handle, onEvent, onWake] at h
      split at h
      · exact .inr ⟨_, List.mem_singleton.mp h⟩
      · cases h

/-- What an input makes of the board, with the orders that display it. -/
inductive Displays (client : Client) : Input → Board → List Order → Prop where
  | frame {input : Input} {frame : Frame} (read : client.reads? input = some frame) :
      Displays client input (client.board.apply frame).1
        (client.board.displayAll client.connection.settings.errorTtl frame)
  | message {content : String} {ticket : Ticket} (isOpen : client.connection.isOpen = true) :
      Displays client (.command (.chat content ticket)) (client.board.pushUserMessage content) []
  | expiry {topic : Topic} {token : Nat} (shown : client.board.expires topic token = true) :
      Displays client (.event (.wake (.errorExpiry topic token)))
        (client.board.expire topic token) []
  | still {input : Input} (unread : client.reads? input = none)
      (late : ∀ topic token, input = .event (.wake (.errorExpiry topic token)) →
        client.board.expires topic token = false) :
      Displays client input client.board []

theorem displays_nothing {input : Input} (unread : client.reads? input = none)
    (other : ∀ topic token, input ≠ .event (.wake (.errorExpiry topic token))) :
    Displays client input client.board [] :=
  .still unread fun topic token isExpiry => absurd isExpiry (other topic token)

theorem displays_dispatch (client : Client) (text : String) :
    (∃ frame, Frame.parse text = .ok frame ∧
      (client.dispatch text).1.board = (client.board.apply frame).1 ∧
      (client.dispatch text).2.filter Order.isDisplay =
        client.board.displayAll client.connection.settings.errorTtl frame) ∨
    ((Frame.parse text).toOption = none ∧ client.dispatch text = (client, [])) := by
  unfold dispatch
  cases parsed : Frame.parse text with
  | error fault => exact .inr ⟨rfl, rfl⟩
  | ok frame =>
    refine .inl ⟨frame, rfl, board_performAll _ _, ?_⟩
    simp only [List.filter_append, displayed_performAll]
    exact List.append_nil _

theorem displays_onNews (generation : Nat) (news : LinkNews) (sessionId : String) :
    Displays client (.event (.link generation news))
      (client.onNews generation news sessionId).1.board
      ((client.onNews generation news sessionId).2.filter Order.isDisplay) := by
  cases given : client.dispatches? (.link generation news) with
  | some dispatch =>
    rw [onNews_of_dispatches given]
    rcases displays_dispatch client dispatch.text with
      ⟨frame, parsed, board, drawn⟩ | ⟨garbled, same⟩
    · rw [board, drawn]
      refine .frame ?_
      simp only [reads?, given, Option.bind_some, parsed]
      rfl
    · rw [same]
      refine displays_nothing ?_ (by simp)
      simp only [reads?, given, Option.bind_some, garbled]
  | none =>
    have kept := congrArg Client.board (onNews_of_nothing given sessionId)
    rw [kept, filter_eq_nil_of_false fun order ordered =>
      (isOwn_of_mem_onNews given ordered).not_isDisplay]
    refine displays_nothing ?_ (by simp)
    simp only [reads?, given, Option.bind_none]

theorem displays_onWake (wake : Wake) :
    Displays client (.event (.wake wake)) (client.onWake credential wake).1.board
      ((client.onWake credential wake).2.filter Order.isDisplay) := by
  cases wake with
  | reconnect =>
    simp only [onWake, filter_eq_nil_of_false fun order ordered =>
      (isOwn_of_mem_connect ordered).not_isDisplay]
    exact displays_nothing rfl (by simp)
  | resume generation chatId =>
    have silent : ∀ order ∈ client.connection.resume generation chatId,
        order.isDisplay = false := by
      intro order ordered
      exact (Order.IsOwn.outward (Connection.isOutward_of_mem_resume ordered)).not_isDisplay
    simp only [onWake, filter_eq_nil_of_false silent]
    exact displays_nothing rfl (by simp)
  | saveDeadline request =>
    simp only [onWake, filter_eq_nil_of_false fun order ordered =>
      (isOwn_of_mem_expire ordered).not_isDisplay]
    exact displays_nothing rfl (by simp)
  | errorExpiry topic token =>
    simp only [onWake]
    cases shown : client.board.expires topic token with
    | true => exact .expiry shown
    | false =>
      refine .still rfl ?_
      rintro other token' ⟨⟩
      exact shown

@[simp] theorem board_save (client : Client) (action : Action) (ticket : Ticket) :
    (client.save action ticket).1.board = client.board := by
  unfold save
  split <;> rfl

theorem displays_onCommand (command : Command) :
    Displays client (.command command) (client.onCommand credential command).1.board
      ((client.onCommand credential command).2.filter Order.isDisplay) := by
  have still {orders : List Order} (own : ∀ order ∈ orders, order.IsOwn) :
      Displays client (.command command) client.board (orders.filter Order.isDisplay) := by
    rw [filter_eq_nil_of_false fun order ordered => (own order ordered).not_isDisplay]
    exact displays_nothing rfl (by simp)
  cases command with
  | connect => exact still fun order => isOwn_of_mem_connect
  | disconnect => exact still fun order => isOwn_of_mem_hangUp fun reason same => nomatch same
  | shutdown => exact still fun order none => nomatch none
  | send action => exact still fun order => isOwn_of_mem_send
  | chat content ticket =>
    simp only [onCommand, chat]
    split
    · next isOpen =>
      rw [List.filter_append, filter_eq_nil_of_false fun order ordered =>
        (isOwn_of_mem_send ordered).not_isDisplay]
      exact .message isOpen
    · refine still fun order ordered => ?_
      rw [List.mem_singleton.mp ordered]
      exact .answer ticket false
  | save action ticket =>
    rw [onCommand, board_save]
    exact still fun order => isOwn_of_mem_save

/-- The board changes by a frame, a message or an expiry, and only a frame is displayed. -/
theorem displays_handle (client : Client) (credential : Option String) (sessionId : String)
    (input : Input) :
    Displays client input (client.handle credential sessionId input).1.board
      ((client.handle credential sessionId input).2.filter Order.isDisplay) := by
  cases input with
  | command command => exact displays_onCommand command
  | event event =>
    rcases event with ⟨generation, news⟩ | wake
    · exact displays_onNews generation news sessionId
    · exact displays_onWake wake

end Client

theorem System.not_isDisplay_of_mem_lastOrders {system : System}
    (h : order ∈ system.lastOrders) : order.isDisplay = false :=
  (isOwn_of_mem_lastOrders h).not_isDisplay

end Liveboard.Session
