/-
  Liveboard/Proofs/Session/UserMessages.lean
  ==========================================
  **What becomes of a message that a user sends.**

  Messages of the user are optimistic: the loop decides by the phase of the connection alone.
  While the connection is open it records the message, offers the frame to the queue of the
  link and answers that the message was sent, whatever the queue makes of it; otherwise it
  answers that it was not, and nothing changes (`message_recorded_iff_open`).  So a message
  that was not recorded was not sent, but one that a full or an abandoned queue dropped is
  recorded all the same (`recorded_though_dropped`).
-/
import Liveboard.Proofs.Session.Outbound

namespace Liveboard.Session

/-- The answer to a caller that sent a message. -/
def Record.answer? : Record → Option (Ticket × Bool)
  | .answered ticket sent => some (ticket, sent)
  | _ => none

/-! ### One frame and one queue -/

namespace World

variable {world : World} {index offered : Nat} {envelope frame : Envelope}

/-- An offer leaves one record, of what the queue made of it. -/
theorem records_offer : (world.perform (.offer offered frame)).2 =
    [if world.accepts offered = true then .queued offered frame else .refused offered frame] := by
  simp only [perform]
  split <;> rfl

/-- The queue that is offered a frame takes it or drops it; no other queue hears of it. -/
theorem queued_mem_offer_iff :
    .queued index envelope ∈ (world.perform (.offer offered frame)).2 ↔
      offered = index ∧ world.accepts index = true ∧ envelope = frame := by
  rw [records_offer, List.mem_singleton]
  split
  · next accepts =>
    rw [Record.queued.injEq]
    constructor
    · rintro ⟨rfl, rfl⟩
      exact ⟨rfl, accepts, rfl⟩
    · rintro ⟨rfl, -, rfl⟩
      exact ⟨rfl, rfl⟩
  · next refuses =>
    refine iff_of_false nofun ?_
    rintro ⟨rfl, accepts, -⟩
    exact refuses accepts

theorem answers_offer : (world.perform (.offer offered frame)).2.filterMap Record.answer? = [] := by
  rw [records_offer]
  split <;> rfl

end World

namespace System

variable {system : System} {move : Move} {content : String} {ticket : Ticket}

/-- While the connection is open a message is recorded, offered, shown and answered. -/
theorem step_chat_of_open (taken : Takes (.command (.chat content ticket)) system move)
    (agrees : system.client.connection.Agrees)
    (isOpen : system.client.connection.isOpen = true) :
    ∃ index, system.client.connection.outbound = some index ∧
      (system.step move).1.client.board = system.client.board.pushUserMessage content ∧
      (system.step move).2 =
        (system.world.perform (.offer index (.ofAction
            (.chatMessage content system.client.board.activeChat)
            system.client.connection.sessionId))).2 ++
          [.published (system.client.board.pushUserMessage content), .answered ticket true] := by
  have held := agrees.outbound
  rw [isOpen, Option.isSome_iff_exists] at held
  obtain ⟨index, held⟩ := held
  have handled : system.client.chat content ticket =
      ({ system.client with board := system.client.board.pushUserMessage content },
        [.offer index (.ofAction (.chatMessage content system.client.board.activeChat)
            system.client.connection.sessionId),
          .publish (system.client.board.pushUserMessage content), .answer ticket true]) := by
    simp only [Client.chat, isOpen, if_true, Client.send, Connection.send, Connection.offer, held]
    rfl
  obtain ⟨sessionId, after⟩ := (turn_step system move).of_takes taken (by simp)
  rw [after, client_carryOut, records_carryOut]
  refine ⟨index, held, ?_, ?_⟩
  · simp only [Client.handle, Client.onCommand, handled]
  · simp only [Client.handle, Client.onCommand, handled]
    rfl

/-- Otherwise the caller is told so, and that is all. -/
theorem step_chat_of_not_open (taken : Takes (.command (.chat content ticket)) system move)
    (shut : system.client.connection.isOpen = false) :
    (system.step move).1.client = system.client ∧
      (system.step move).1.published = system.published ∧
      (system.step move).2 = [.answered ticket false] := by
  have handled : system.client.chat content ticket =
      (system.client, [.answer ticket false]) := by
    simp only [Client.chat, shut, Bool.false_eq_true, if_false]
  obtain ⟨sessionId, after⟩ := (turn_step system move).of_takes taken (by simp)
  rw [after]
  simp only [Client.handle, Client.onCommand, handled]
  exact ⟨rfl, rfl, rfl⟩

/-- **A message is recorded exactly if the connection is open.**  In whatever state the session
    is when it handles a message, and in whatever state the queue: the caller is answered
    once, and told that the message was sent exactly if the connection is open.  Then the
    message is recorded, the queue that an open connection has is offered one frame with it,
    placed in the active chat, the board is shown and the caller answered, and that is all;
    otherwise the client stays as it is, nothing is shown and nothing is offered to a queue.
    The queue takes the frame exactly if it has room and the server listens. -/
theorem message_recorded_iff_open {settings : Settings} {credential : Option String}
    {moves : List Move}
    (taken : Takes (.command (.chat content ticket)) ((start settings credential).run moves).1
      move) :
    let system := ((start settings credential).run moves).1
    let connection := system.client.connection
    let after := system.step move
    after.2.filterMap Record.answer? = [(ticket, connection.isOpen)] ∧
      (connection.isOpen = true →
        after.1.client.board = system.client.board.pushUserMessage content ∧
          ∃ index, connection.outbound = some index ∧
            let frame := .ofAction (.chatMessage content system.client.board.activeChat)
              connection.sessionId
            after.2 =
              [if system.world.accepts index = true then .queued index frame
                else .refused index frame,
                .published after.1.client.board, .answered ticket true]) ∧
      (connection.isOpen = false →
        after.1.client = system.client ∧ after.1.published = system.published ∧
          after.2 = [.answered ticket false]) ∧
      (connection.isOpen = true ↔ ∃ index, connection.outbound = some index) ∧
      ∀ index envelope, .queued index envelope ∈ after.2 ↔
        connection.outbound = some index ∧ system.world.accepts index = true ∧
          envelope = .ofAction (.chatMessage content system.client.board.activeChat)
            connection.sessionId := by
  intro system connection after
  have agrees : connection.Agrees := (wired_run settings credential moves).agrees
  have holds : connection.isOpen = true ↔ ∃ index, connection.outbound = some index := by
    rw [← agrees.outbound, Option.isSome_iff_exists]
  cases isOpen : connection.isOpen with
  | true =>
    obtain ⟨index, held, board, records⟩ := step_chat_of_open taken agrees isOpen
    refine ⟨?_, fun _ => ⟨board, index, held, ?_⟩, nofun, by rw [← holds, isOpen], ?_⟩
    · rw [records, List.filterMap_append, World.answers_offer]
      rfl
    · rw [records, World.records_offer, board]
      rfl
    · intro other envelope
      rw [records, List.mem_append, World.queued_mem_offer_iff, held, Option.some.injEq]
      exact or_iff_left (by simp)
  | false =>
    obtain ⟨client, published, records⟩ := step_chat_of_not_open taken isOpen
    refine ⟨by rw [records]; rfl, nofun, fun _ => ⟨client, published, records⟩,
      by rw [← holds, isOpen], ?_⟩
    have unheld : ¬∃ index, connection.outbound = some index := by
      rw [← holds, isOpen]
      exact Bool.false_ne_true
    intro index envelope
    rw [records]
    constructor
    · simp
    · rintro ⟨held, -⟩
      exact absurd ⟨index, held⟩ unheld

/-- A link opens, its queue has room, and a user says hello. -/
theorem message_recorded_and_queued :
    let settings : Settings := ⟨"ws://localhost/ui", [], 3, 1, 10, 5⟩
    let moves : List Move :=
      [.submit .connect, .takeCommand, .world (.linkOpens 1 outboundCapacity),
        .takeEvent "session", .submit (.chat "hello")]
    let system := ((start settings (some "token")).run moves).1
    Takes (.command (.chat "hello" 1)) system .takeCommand ∧
      system.client.connection.isOpen = true ∧
      (system.step .takeCommand).1.client.board.messages = [.ofUser "hello"] ∧
      .queued 0 (.ofAction (.chatMessage "hello" none) (some "session")) ∈
        (system.step .takeCommand).2 := by
  intro settings moves system
  have taken : Takes (.command (.chat "hello" 1)) system .takeCommand := rfl
  have isOpen : system.client.connection.isOpen = true := rfl
  obtain ⟨-, recorded, -, -, queued⟩ := message_recorded_iff_open taken
  refine ⟨taken, isOpen, ?_, ?_⟩
  · rw [(recorded isOpen).1]
    rfl
  · rw [queued]
    exact ⟨rfl, rfl, rfl⟩

/-- The server has gone, which the loop was not told yet: the message is recorded and answered
    as sent, and no queue has it. -/
theorem recorded_though_dropped :
    let settings : Settings := ⟨"ws://localhost/ui", [], 3, 1, 10, 5⟩
    let moves : List Move :=
      [.submit .connect, .takeCommand, .world (.linkOpens 1 outboundCapacity),
        .takeEvent "session", .world (.serverLeaves 0), .submit (.chat "hello")]
    let system := ((start settings (some "token")).run moves).1
    let after := system.step .takeCommand
    Takes (.command (.chat "hello" 1)) system .takeCommand ∧
      .answered 1 true ∈ after.2 ∧
      after.1.client.board.messages = system.client.board.messages ++ [.ofUser "hello"] ∧
      ∀ index envelope, .queued index envelope ∉ after.2 := by
  intro settings moves system after
  have taken : Takes (.command (.chat "hello" 1)) system .takeCommand := rfl
  have records : after.2 =
      [.refused 0 (.ofAction (.chatMessage "hello" none) (some "session")),
        .published (system.client.board.pushUserMessage "hello"), .answered 1 true] := rfl
  refine ⟨taken, ?_, rfl, ?_⟩
  · rw [records]
    simp
  · intro index envelope
    rw [records]
    simp

end System
end Liveboard.Session
