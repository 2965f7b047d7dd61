/-
  Liveboard/Proofs/Session/Handlers.lean
  ======================================
  **Which input makes the loop ask for what.**

  `Asked` lists every order that can end a scope, arm a scoped alarm or start a link,
  with the one kind of input that leads to it.  Everything else a handler asks for is
  plain: it concerns the server, the screen, callers, watchers, or the expiry of an
  error text.
-/
import Liveboard.Session.Client

namespace Liveboard.Session

/-- Something that the loop is handed. -/
inductive Input where
  | command (command : Command)
  | event (event : Event)

/-- Handle an input.  `sessionId` is the id to register under if it opens a link. -/
def Client.handle (client : Client) (credential : Option String) (sessionId : String) :
    Input → Client × List Order
  | .command command => client.onCommand credential command
  | .event event => client.onEvent credential sessionId event

/-- The input asks for an attempt to connect. -/
def Input.connects : Input → Bool
  | .command .connect => true
  | .event (.wake .reconnect) => true
  | _ => false

/-- The order starts no link and concerns neither the scope nor an alarm in it. -/
def Order.isPlain : Order → Bool
  | .attempt _ _ | .endScope | .arm _ _ => false
  | .armDetached _ (.errorExpiry _ _) => true
  | .armDetached _ _ => false
  | _ => true

/-- The order concerns a link, the server, or those who watch whether the client is online. -/
def Order.isOutward : Order → Bool
  | .offer _ _ | .release _ | .cut _ | .announce _ => true
  | _ => false

theorem Order.isPlain_of_isOutward {order : Order} (h : order.isOutward = true) :
    order.isPlain = true := by
  cases order <;> first | rfl | cases h

/-- What the handler of an input can ask for. -/
inductive Asked (client : Client) (credential : Option String) : Input → Order → Prop where
  | attempt {input : Input} (connects : input.connects = true)
      (free : client.connection.isLive = false) (given : credential.isSome = true) :
      Asked client credential input
        (.attempt (client.connection.generation + 1) client.connection.settings.url)
  | endScope : Asked client credential (.command .disconnect) .endScope
  | reconnect {event : LinkEvent} (live : client.connection.isLive = true)
      (final : event.isFinal = true) :
      Asked client credential (.event (.link client.connection.generation (.reported event)))
        (.arm client.connection.settings.reconnectDelay .reconnect)
  | resume {channel : Nat} {chatId : String} (live : client.connection.isLive = true)
      (active : client.board.activeChat = some chatId) :
      Asked client credential (.event (.link client.connection.generation (.opened channel)))
        (.arm client.connection.settings.resumeDelay
          (.resume client.connection.generation chatId))
  | deadline {action : Action} {ticket : Ticket} (isOpen : client.connection.isOpen = true) :
      Asked client credential (.command (.save action ticket))
        (.arm client.saves.timeout (.saveDeadline client.saves.nextId))
  | plain {input : Input} {order : Order} (h : order.isPlain = true) :
      Asked client credential input order

/-! ### The connection -/

namespace Connection

variable {connection : Connection} {order : Order}

theorem isOpen_iff : connection.isOpen = true ↔ connection.phase = .connected := by
  unfold isOpen
  cases connection.phase <;> decide

theorem isLive_iff :
    connection.isLive = true ↔
      connection.phase = .connecting ∨ connection.phase = .connected := by
  unfold isLive
  cases connection.phase <;> decide

theorem isLive_eq_false_iff :
    connection.isLive = false ↔
      connection.phase = .disconnected ∨ connection.phase = .closed := by
  unfold isLive
  cases connection.phase <;> decide

theorem isOpen_eq_false_of_isLive (free : connection.isLive = false) :
    connection.isOpen = false := by
  rw [isLive, Bool.or_eq_false_iff] at free
  exact free.2

theorem isOutward_of_mem_send {action : Action} (h : order ∈ connection.send action) :
    order.isOutward = true := by
  unfold send at h
  split at h
  · obtain ⟨channel, -, rfl⟩ := List.mem_map.mp h
    rfl
  · cases h

theorem isOutward_of_mem_dropLink (h : order ∈ connection.dropLink.2) :
    order.isOutward = true := by
  rcases List.mem_append.mp h with h | h
  · obtain ⟨channel, -, rfl⟩ := List.mem_map.mp h
    rfl
  · obtain ⟨generation, -, rfl⟩ := List.mem_map.mp h
    rfl

theorem isOutward_of_mem_resume {generation : Nat} {chatId : String}
    (h : order ∈ connection.resume generation chatId) : order.isOutward = true := by
  unfold resume at h
  split at h
  · exact isOutward_of_mem_send h
  · cases h

theorem of_mem_onOpen {channel : Nat} {sessionId : String} {activeChat : Option String}
    (h : order ∈ (connection.onOpen channel sessionId activeChat).2) :
    order.isOutward = true ∨ ∃ chatId, activeChat = some chatId ∧
      order = .arm connection.settings.resumeDelay (.resume connection.generation chatId) := by
  rcases List.mem_append.mp h with h | h
  · simp only [List.mem_append, or_assoc] at h
    rcases h with h | h | h | h
    · obtain ⟨channel, -, rfl⟩ := List.mem_map.mp h
      exact .inl rfl
    · rw [List.mem_singleton.mp h]; exact .inl rfl
    · rw [List.mem_singleton.mp h]; exact .inl rfl
    · exact .inl (isOutward_of_mem_send h)
  · obtain ⟨chatId, active, rfl⟩ := List.mem_map.mp h
    exact .inr ⟨chatId, Option.mem_toList.mp active, rfl⟩

theorem of_mem_onClose (h : order ∈ connection.onClose.2) :
    order.isOutward = true ∨ order = .arm connection.settings.reconnectDelay .reconnect := by
  rcases List.mem_append.mp h with h | h
  · exact .inl (isOutward_of_mem_dropLink h)
  · rcases List.mem_cons.mp h with rfl | h
    · exact .inl rfl
    · exact .inr (List.mem_singleton.mp h)

theorem of_mem_disconnect (h : order ∈ connection.disconnect.2) :
    order = .endScope ∨ order.isOutward = true := by
  rcases List.mem_cons.mp h with rfl | h
  · exact .inl rfl
  · rcases List.mem_append.mp h with h | h
    · exact .inr (isOutward_of_mem_dropLink h)
    · rw [List.mem_singleton.mp h]; exact .inr rfl

theorem connect_of_isLive (live : connection.isLive = true) (credential : Option String) :
    connection.connect credential = (connection, []) := by
  cases credential with
  | none => rfl
  | some token => simp [connect, live]

def attempting (connection : Connection) (token : String) : Connection :=
  { connection with
    phase := .connecting, generation := connection.generation + 1
    token := some token, link := some (connection.generation + 1) }

theorem connect_of_not_isLive (free : connection.isLive = false) (token : String) :
    connection.connect (some token) =
      (connection.attempting token,
        [.attempt (connection.generation + 1) connection.settings.url]) := by
  simp [connect, free, attempting]

theorem of_mem_connect {credential : Option String}
    (h : order ∈ (connection.connect credential).2) :
    connection.isLive = false ∧ credential.isSome = true ∧
      order = .attempt (connection.generation + 1) connection.settings.url := by
  cases credential with
  | none => cases h
  | some token =>
    cases live : connection.isLive with
    | true => rw [connect_of_isLive live] at h; cases h
    | false =>
      rw [connect_of_not_isLive live] at h
      exact ⟨rfl, rfl, List.mem_singleton.mp h⟩

/-- What comes of news of a link. -/
inductive Handled (connection : Connection) (generation : Nat) (sessionId : String)
    (activeChat : Option String) :
    LinkNews → Connection × List Order × Option String → Prop where
  | stale {news : LinkNews} (channels : List Nat)
      (late : generation ≠ connection.generation ∨ connection.isLive = false) :
      Handled connection generation sessionId activeChat news
        (connection, channels.map .release, none)
  | opened {channel : Nat} (current : generation = connection.generation)
      (live : connection.isLive = true) :
      Handled connection generation sessionId activeChat (.opened channel)
        ((connection.onOpen channel sessionId activeChat).1,
          (connection.onOpen channel sessionId activeChat).2, none)
  | frame {text : String} (current : generation = connection.generation)
      (live : connection.isLive = true) :
      Handled connection generation sessionId activeChat (.reported (.frame text))
        (connection, [], some text)
  | closed {event : LinkEvent} (current : generation = connection.generation)
      (live : connection.isLive = true) (final : event.isFinal = true) :
      Handled connection generation sessionId activeChat (.reported event)
        (connection.onClose.1, connection.onClose.2, none)

theorem handled_handle (connection : Connection) (generation : Nat) (news : LinkNews)
    (sessionId : String) (activeChat : Option String) :
    Handled connection generation sessionId activeChat news
      (connection.handle generation news sessionId activeChat) := by
  unfold handle
  split
  · next fresh =>
    simp only [Bool.and_eq_true, beq_iff_eq] at fresh
    obtain ⟨current, live⟩ := fresh
    split
    · exact .opened current live
    · exact .frame current live
    · next event notFrame =>
      have final : event.isFinal = true := by
        cases event with
        | frame text => exact absurd rfl (notFrame text)
        | _ => rfl
      exact .closed current live final
  · next stale =>
    have late : generation ≠ connection.generation ∨ connection.isLive = false := by
      by_cases current : generation = connection.generation
      · exact .inr (by simpa [current] using stale)
      · exact .inl current
    split
    · next channel => exact .stale [channel] late
    · exact .stale [] late

section Handled

variable {generation : Nat} {sessionId : String} {activeChat : Option String} {news : LinkNews}
  {result : Connection × List Order × Option String}

theorem Handled.generation_eq
    (handled : Handled connection generation sessionId activeChat news result) :
    result.1.generation = connection.generation := by
  cases handled <;> rfl

theorem Handled.eq_of_not_isLive (free : connection.isLive = false)
    (handled : Handled connection generation sessionId activeChat news result) :
    result.1 = connection := by
  cases handled with
  | stale channels late => rfl
  | opened current live => rw [free] at live; cases live
  | frame current live => rfl
  | closed current live final => rw [free] at live; cases live

end Handled

end Connection

/-! ### The client -/

namespace Client

variable {client : Client} {credential : Option String} {order : Order}

theorem isPlain_of_mem_settlements {settled : List (Settlement Ticket SavedComponent)}
    (h : order ∈ settlements settled) : order.isPlain = true := by
  obtain ⟨settlement, -, rfl⟩ := List.mem_map.mp h
  rfl

theorem isPlain_of_mem_perform {effect : Effect} (h : order ∈ (client.perform effect).2) :
    order.isPlain = true := by
  cases effect with
  | send action => exact Order.isPlain_of_isOutward (Connection.isOutward_of_mem_send h)
  | resolveSave component => exact isPlain_of_mem_settlements h
  | rejectSave reason => exact isPlain_of_mem_settlements h
  | armExpiry topic token => rw [List.mem_singleton.mp h]; rfl
  | reset => rw [List.mem_singleton.mp h]; rfl
  | render target =>
    obtain ⟨forest, -, rfl⟩ := List.mem_map.mp h
    rfl

theorem isPlain_of_mem_performAll {effects : List Effect}
    (h : order ∈ (client.performAll effects).2) : order.isPlain = true := by
  induction effects generalizing client with
  | nil => cases h
  | cons effect effects ih =>
    rcases List.mem_append.mp h with h | h
    · exact isPlain_of_mem_perform h
    · exact ih h

theorem isPlain_of_mem_dispatch {text : String} (h : order ∈ (client.dispatch text).2) :
    order.isPlain = true := by
  unfold dispatch at h
  split at h
  · cases h
  · rcases List.mem_append.mp h with h | h
    · exact isPlain_of_mem_performAll h
    · rw [List.mem_singleton.mp h]; rfl

@[simp] theorem connection_perform (client : Client) (effect : Effect) :
    (client.perform effect).1.connection = client.connection := by
  cases effect <;> rfl

@[simp] theorem connection_performAll (client : Client) (effects : List Effect) :
    (client.performAll effects).1.connection = client.connection := by
  induction effects generalizing client with
  | nil => rfl
  | cons effect effects ih =>
    have same := ih (client.perform effect).1
    rw [connection_perform] at same
    exact same

@[simp] theorem connection_dispatch (client : Client) (text : String) :
    (client.dispatch text).1.connection = client.connection := by
  unfold dispatch
  split
  · rfl
  · exact connection_performAll _ _

theorem asked_connect {input : Input} (connects : input.connects = true)
    (h : order ∈ (client.connect credential).2) : Asked client credential input order := by
  obtain ⟨free, given, rfl⟩ := Connection.of_mem_connect h
  exact .attempt connects free given

theorem of_mem_hangUp {failure : Failure} (h : order ∈ (client.hangUp failure).2) :
    order = .endScope ∨ order.isPlain = true := by
  rcases List.mem_append.mp h with h | h
  · exact (Connection.of_mem_disconnect h).imp_right Order.isPlain_of_isOutward
  · exact .inr (isPlain_of_mem_settlements h)

theorem asked_of_mem_send {input : Input} {action : Action} (h : order ∈ client.send action) :
    Asked client credential input order :=
  .plain (Order.isPlain_of_isOutward (Connection.isOutward_of_mem_send h))

theorem asked_onCommand {command : Command}
    (h : order ∈ (client.onCommand credential command).2) :
    Asked client credential (.command command) order := by
  cases command with
  | connect => exact asked_connect rfl h
  | disconnect =>
    rcases of_mem_hangUp h with rfl | plain
    · exact .endScope
    · exact .plain plain
  | shutdown => cases h
  | send action => exact asked_of_mem_send h
  | chat content ticket =>
    simp only [onCommand, chat] at h
    split at h
    · rcases List.mem_append.mp h with h | h
      · exact asked_of_mem_send h
      · rcases List.mem_cons.mp h with rfl | h
        · exact .plain rfl
        · rw [List.mem_singleton.mp h]; exact .plain rfl
    · rw [List.mem_singleton.mp h]; exact .plain rfl
  | save action ticket =>
    simp only [onCommand, save] at h
    split at h
    · next isOpen =>
      rcases List.mem_cons.mp h with rfl | h
      · exact .deadline isOpen
      · exact asked_of_mem_send h
    · rw [List.mem_singleton.mp h]; exact .plain rfl

theorem asked_onNews {generation : Nat} {news : LinkNews} {sessionId : String}
    (h : order ∈ (client.onNews generation news sessionId).2) :
    Asked client credential (.event (.link generation news)) order := by
  have handled := Connection.handled_handle client.connection generation news sessionId
    client.board.activeChat
  unfold onNews at h
  revert handled h
  generalize client.connection.handle generation news sessionId client.board.activeChat = result
  intro h handled
  cases handled with
  | stale channels late =>
    obtain ⟨channel, -, rfl⟩ := List.mem_map.mp h
    exact .plain rfl
  | opened current live =>
    subst current
    rcases Connection.of_mem_onOpen h with outward | ⟨chatId, active, rfl⟩
    · exact .plain (Order.isPlain_of_isOutward outward)
    · exact .resume live active
  | frame current live => exact .plain (isPlain_of_mem_dispatch h)
  | closed current live final =>
    subst current
    rcases Connection.of_mem_onClose h with outward | rfl
    · exact .plain (Order.isPlain_of_isOutward outward)
    · exact .reconnect live final

theorem asked_onEvent {event : Event} {sessionId : String}
    (h : order ∈ (client.onEvent credential sessionId event).2) :
    Asked client credential (.event event) order := by
  rcases event with ⟨generation, news⟩ | wake
  · exact asked_onNews h
  · cases wake with
    | reconnect => exact asked_connect rfl h
    | resume generation chatId =>
      exact .plain (Order.isPlain_of_isOutward (Connection.isOutward_of_mem_resume h))
    | saveDeadline request => exact .plain (isPlain_of_mem_settlements h)
    | errorExpiry topic token =>
      simp only [onEvent, onWake] at h
      split at h
      · rw [List.mem_singleton.mp h]; exact .plain rfl
      · cases h

/-- The orders that a handler gives are those its input is entitled to. -/
theorem asked_handle {input : Input} {sessionId : String}
    (h : order ∈ (client.handle credential sessionId input).2) :
    Asked client credential input order := by
  cases input with
  | command command => exact asked_onCommand h
  | event event => exact asked_onEvent h

/-! ### The connection after an input -/

theorem connection_onCommand (client : Client) (credential : Option String) (command : Command) :
    (client.onCommand credential command).1.connection =
      match command with
      | .connect => (client.connection.connect credential).1
      | .disconnect => client.connection.disconnect.1
      | _ => client.connection := by
  cases command with
  | chat content ticket => simp only [onCommand, chat]; split <;> rfl
  | save action ticket => simp only [onCommand, save]; split <;> rfl
  | _ => rfl

theorem connection_onNews (client : Client) (generation : Nat) (news : LinkNews)
    (sessionId : String) :
    (client.onNews generation news sessionId).1.connection =
      (client.connection.handle generation news sessionId client.board.activeChat).1 := by
  unfold onNews
  split
  next connection orders frame? handled =>
    rw [handled]
    cases frame? with
    | none => rfl
    | some text => exact connection_dispatch _ _

theorem connection_onWake (client : Client) (credential : Option String) (wake : Wake) :
    (client.onWake credential wake).1.connection =
      if wake = .reconnect then (client.connection.connect credential).1
      else client.connection := by
  cases wake with
  | reconnect => rfl
  | errorExpiry topic token => simp only [onWake]; split <;> rfl
  | _ => rfl

end Client
end Liveboard.Session
