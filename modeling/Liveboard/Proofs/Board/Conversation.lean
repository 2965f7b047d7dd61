/-
  Liveboard/Proofs/Board/Conversation.lean
  ========================================
  **The conversation of a board, and what becomes of it when the chat is switched.**

  The active chat, its messages and the buffer that is rendered in place make up the
  conversation.  Whatever is done to a board depends, as far as the conversation, the
  screen and the server are concerned, on the conversation alone
  (`SameConversation.operate`).  A frame that creates or loads a chat puts a new one in its
  place whatever was there before, so that two boards with any past agree from then on
  (`chat_switch_forgets`).
-/
import Liveboard.Session.Board

namespace Liveboard

/-- The chat that a frame makes the active one. -/
def Frame.opens? : Frame → Option String
  | .chatCreated chatId => some chatId
  | .chatLoaded chatId _ => some chatId
  | _ => none

namespace Session

/-- The effect is one for the screen or for the server. -/
def Effect.isOutward : Effect → Bool
  | .send _ | .reset | .render _ => true
  | _ => false

namespace Board

variable {board other third : Board}

/-! ### Operations -/

/-- All that can be done to a board. -/
inductive Operation where
  | frame (frame : Frame)
  | userMessage (text : String)
  | expiry (topic : Topic) (token : Nat)

def operate (board : Board) : Operation → Board × List Effect
  | .frame frame => board.apply frame
  | .userMessage text => (board.pushUserMessage text, [])
  | .expiry topic token => (board.expire topic token, [])

/-- One operation after the other, with the effects of each. -/
def operateAll (board : Board) : List Operation → Board × List (List Effect)
  | [] => (board, [])
  | operation :: operations =>
    let (board, effects) := board.operate operation
    let (board, later) := operateAll board operations
    (board, effects :: later)

theorem operateAll_cons (board : Board) (operation : Operation) (operations : List Operation) :
    board.operateAll (operation :: operations) =
      (((board.operate operation).1.operateAll operations).1,
        (board.operate operation).2 :: ((board.operate operation).1.operateAll operations).2) :=
  rfl

/-! ### Boards with the same conversation -/

structure SameConversation (board other : Board) : Prop where
  activeChat : board.activeChat = other.activeChat
  messages : board.messages = other.messages
  live : board.live = other.live

namespace SameConversation

theorem refl (board : Board) : SameConversation board board := ⟨rfl, rfl, rfl⟩

theorem symm (same : SameConversation board other) : SameConversation other board :=
  ⟨same.activeChat.symm, same.messages.symm, same.live.symm⟩

theorem trans (same : SameConversation board other) (same' : SameConversation other third) :
    SameConversation board third :=
  ⟨same.activeChat.trans same'.activeChat, same.messages.trans same'.messages,
    same.live.trans same'.live⟩

theorem forest? (same : SameConversation board other) (target : Target) :
    board.forest? target = other.forest? target := by
  cases target with
  | message index => simp only [Board.forest?, same.messages]
  | live => simp only [Board.forest?, same.live]

end SameConversation

/-- An error text is no part of the conversation. -/
theorem sameConversation_expire (board : Board) (topic : Topic) (token : Nat) :
    SameConversation (board.expire topic token) board := by
  unfold expire
  split
  · cases topic <;> exact ⟨rfl, rfl, rfl⟩
  · exact .refl board

/-- What a frame makes of the conversation, and what it asks of screen and server, does not
    depend on anything else on the board. -/
theorem SameConversation.apply (same : SameConversation board other) (frame : Frame) :
    SameConversation (board.apply frame).1 (other.apply frame).1 ∧
      (board.apply frame).2.filter Effect.isOutward =
        (other.apply frame).2.filter Effect.isOutward := by
  have alone : ∀ {next next' : Board}, SameConversation next board → SameConversation next' other →
      SameConversation next next' := by
    intro next next' kept kept'
    exact (kept.trans same).trans kept'.symm
  cases frame with
  | render forest =>
    refine ⟨⟨same.activeChat, ?_, same.live⟩, ?_⟩
    · simp only [Board.apply, same.messages]
    · simp only [Board.apply, same.messages]
  | update forest => exact ⟨⟨same.activeChat, same.messages, rfl⟩, rfl⟩
  | append forest =>
    refine ⟨⟨same.activeChat, same.messages, ?_⟩, rfl⟩
    simp only [Board.apply, same.live]
  | chatCreated chatId => exact ⟨⟨rfl, rfl, rfl⟩, rfl⟩
  | chatLoaded chatId messages => exact ⟨⟨rfl, rfl, rfl⟩, rfl⟩
  | systemConfig agents =>
    cases agents with
    | none => exact ⟨same, rfl⟩
    | some agents => exact ⟨alone ⟨rfl, rfl, rfl⟩ ⟨rfl, rfl, rfl⟩, rfl⟩
  | agentRegistered agent =>
    have kept : ∀ board : Board, SameConversation (board.apply (.agentRegistered agent)).1 board ∧
        (board.apply (.agentRegistered agent)).2 = [] := by
      intro board
      simp only [Board.apply]
      split <;> exact ⟨⟨rfl, rfl, rfl⟩, rfl⟩
    rw [(kept board).2, (kept other).2]
    exact ⟨alone (kept board).1 (kept other).1, rfl⟩
  | _ => exact ⟨alone ⟨rfl, rfl, rfl⟩ ⟨rfl, rfl, rfl⟩, rfl⟩

theorem SameConversation.operate (same : SameConversation board other) (operation : Operation) :
    SameConversation (board.operate operation).1 (other.operate operation).1 ∧
      (board.operate operation).2.filter Effect.isOutward =
        (other.operate operation).2.filter Effect.isOutward := by
  cases operation with
  | frame frame => exact same.apply frame
  | userMessage text =>
    refine ⟨⟨same.activeChat, ?_, same.live⟩, rfl⟩
    simp only [Board.operate, pushUserMessage, same.messages]
  | expiry topic token =>
    have here := sameConversation_expire board topic token
    have there := sameConversation_expire other topic token
    exact ⟨(here.trans same).trans there.symm, rfl⟩

theorem SameConversation.operateAll (same : SameConversation board other)
    (operations : List Operation) :
    SameConversation (board.operateAll operations).1 (other.operateAll operations).1 ∧
      (board.operateAll operations).2.map (List.filter Effect.isOutward) =
        (other.operateAll operations).2.map (List.filter Effect.isOutward) := by
  induction operations generalizing board other with
  | nil => exact ⟨same, rfl⟩
  | cons operation operations ih =>
    obtain ⟨next, effects⟩ := same.operate operation
    obtain ⟨last, later⟩ := ih next
    refine ⟨last, ?_⟩
    simp only [operateAll_cons, List.map_cons]
    rw [effects, later]

/-! ### Switching the chat -/

/-- The new conversation has nothing of the old one. -/
theorem sameConversation_of_opens {switch : Frame} {chatId : String}
    (opens : switch.opens? = some chatId) (board other : Board) :
    SameConversation (board.apply switch).1 (other.apply switch).1 ∧
      (board.apply switch).2 = (other.apply switch).2 := by
  cases switch with
  | chatCreated created => exact ⟨⟨rfl, rfl, rfl⟩, rfl⟩
  | chatLoaded loaded messages => exact ⟨⟨rfl, rfl, rfl⟩, rfl⟩
  | _ => cases opens

/-- **A switch of the chat forgets the old one.**  Take any two boards, a frame that creates
    or loads a chat, and whatever comes after it.  The two boards end with the same active
    chat, messages and live buffer and have the same forest at every target, and each
    operation asked the same of screen and server on both.  A chat that is
    created right after another was loaded is active and has no messages. -/
theorem chat_switch_forgets {switch : Frame} {chatId : String}
    (opens : switch.opens? = some chatId) (board other : Board) (operations : List Operation) :
    let run := board.operateAll (.frame switch :: operations)
    let run' := other.operateAll (.frame switch :: operations)
    run.1.activeChat = run'.1.activeChat ∧
      run.1.messages = run'.1.messages ∧
      run.1.live = run'.1.live ∧
      (∀ target, run.1.forest? target = run'.1.forest? target) ∧
      run.2.map (List.filter Effect.isOutward) = run'.2.map (List.filter Effect.isOutward) ∧
      ∀ loaded messages created,
        let board := ((board.apply (.chatLoaded loaded messages)).1.apply (.chatCreated created)).1
        board.messages = [] ∧ board.activeChat = some created := by
  intro run run'
  obtain ⟨fresh, effects⟩ := sameConversation_of_opens opens board other
  obtain ⟨same, later⟩ := fresh.operateAll operations
  refine ⟨same.activeChat, same.messages, same.live, same.forest?, ?_, ?_⟩
  · simp only [run, run', operateAll_cons, List.map_cons, Board.operate]
    rw [effects, later]
  · intro loaded messages created
    exact ⟨rfl, rfl⟩

/-- A chat with a message and something in the buffer, and none at all. -/
theorem chat_switch_forgets_message :
    let drawn : Forest := [⟨"text", none, [], [], .children⟩]
    let used := (empty.operateAll [.userMessage "old", .frame (.update drawn)]).1
    let later : List Operation := [.frame (.chatCreated "new"), .userMessage "hello"]
    used.messages ≠ empty.messages ∧ used.live ≠ empty.live ∧
      (Frame.chatCreated "new").opens? = some "new" ∧
      (used.operateAll later).1.messages = (empty.operateAll later).1.messages ∧
      (used.operateAll later).1.live = (empty.operateAll later).1.live := by
  intro drawn used later
  have opens : (Frame.chatCreated "new").opens? = some "new" := rfl
  have forgets := chat_switch_forgets opens used empty [.userMessage "hello"]
  refine ⟨?_, ?_, opens, forgets.2.1, forgets.2.2.1⟩
  · intro same
    cases same
  · intro same
    cases same

end Board
end Session
end Liveboard
