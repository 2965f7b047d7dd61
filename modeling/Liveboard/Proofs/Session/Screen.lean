/-
  Liveboard/Proofs/Session/Screen.lean
  ====================================
  **The screen shows what the board says.**

  The screen is painted by orders alone, one target at a time, and is blank after a reset.
  Still no target ever shows a forest that is not on the board, and every
  message of the assistant that has something to draw is drawn, and so is the live buffer
  (`screen_mirrors_board`).  Each frame keeps that up by the effects it asks for
  (`Mirrors.apply`): a new message takes a new place, and a switch of the chat
  blanks the screen before it draws the new messages.
-/
import Liveboard.Proofs.Board.Conversation
import Liveboard.Proofs.Session.Display

namespace Liveboard.Session

/-- The forest that was drawn last at each target. -/
abbrev Screen := Target → Option Forest

namespace Screen

def blank : Screen := fun _ => none

def draw (screen : Screen) (target : Target) (forest : Forest) : Screen :=
  fun other => if other = target then some forest else screen other

/-- What a record makes of the screen. -/
def paint (screen : Screen) : Record → Screen
  | .reset => blank
  | .rendered target forest => screen.draw target forest
  | _ => screen

def obey (screen : Screen) : Order → Screen
  | .reset => blank
  | .render target forest => screen.draw target forest
  | _ => screen

variable {screen : Screen} {board : Board}

theorem paint_perform (world : World) (order : Order) (screen : Screen) :
    (world.perform order).2.foldl Screen.paint screen = screen.obey order := by
  cases order with
  | offer channel envelope => simp only [World.perform]; split <;> rfl
  | _ => rfl

theorem obey_of_not_isDisplay {order : Order} (silent : order.isDisplay = false) :
    screen.obey order = screen := by
  cases order <;> first | rfl | cases silent

theorem foldl_filter_isDisplay (screen : Screen) (orders : List Order) :
    (orders.filter Order.isDisplay).foldl Screen.obey screen = orders.foldl Screen.obey screen := by
  induction orders generalizing screen with
  | nil => rfl
  | cons order orders ih =>
    cases displayed : order.isDisplay with
    | true => rw [List.filter_cons_of_pos displayed, List.foldl_cons, List.foldl_cons, ih]
    | false =>
      rw [List.filter_cons_of_neg (by simp [displayed]), List.foldl_cons,
        obey_of_not_isDisplay displayed, ih]

/-! ### Mirrors -/

/-- The screen shows nothing but what is on the board, and all of it that has something to
    draw. -/
structure Mirrors (screen : Screen) (board : Board) : Prop where
  faithful : ∀ target forest, screen target = some forest → board.forest? target = some forest
  messages : ∀ index message, board.messages[index]? = some message →
    message.speaker = .assistant → message.content.forest ≠ [] →
      (screen (.message index)).isSome = true
  live : board.live ≠ [] → (screen .live).isSome = true

theorem mirrors_blank : blank.Mirrors .empty := by
  constructor
  · intro target forest drawn
    cases drawn
  · intro index message found
    cases found
  · intro something
    exact absurd rfl something

/-- Whatever is no part of the conversation is not on the screen. -/
theorem Mirrors.of_same {other : Board} (mirrors : screen.Mirrors board)
    (same : Board.SameConversation other board) : screen.Mirrors other := by
  constructor
  · intro target forest drawn
    rw [same.forest? target]
    exact mirrors.faithful target forest drawn
  · rw [same.messages]
    exact mirrors.messages
  · rw [same.live]
    exact mirrors.live

theorem forest?_append_of_some {target : Target} {forest : Forest} (message : Message)
    (found : board.forest? target = some forest) :
    ({ board with messages := board.messages ++ [message] } : Board).forest? target =
      some forest := by
  cases target with
  | live => exact found
  | message index =>
    simp only [Board.forest?, Option.bind_eq_some_iff] at found ⊢
    obtain ⟨earlier, present, drawn⟩ := found
    have within : index < board.messages.length := by
      obtain ⟨within, -⟩ := List.getElem?_eq_some_iff.mp present
      exact within
    refine ⟨earlier, ?_, drawn⟩
    rw [List.getElem?_append_left within]
    exact present

/-- A message of the user has nothing to draw. -/
theorem Mirrors.pushUserMessage (mirrors : screen.Mirrors board) (text : String) :
    screen.Mirrors (board.pushUserMessage text) := by
  constructor
  · intro target forest drawn
    exact forest?_append_of_some _ (mirrors.faithful target forest drawn)
  · intro index message found assistant something
    rcases Nat.lt_or_ge index board.messages.length with within | beyond
    · rw [Board.pushUserMessage, List.getElem?_append_left within] at found
      exact mirrors.messages index message found assistant something
    · rw [Board.pushUserMessage, List.getElem?_append_right beyond] at found
      have user : message = .ofUser text := by
        have member := List.mem_of_getElem? found
        exact List.mem_singleton.mp member
      rw [user] at assistant
      cases assistant
  · exact mirrors.live

theorem Mirrors.render (mirrors : screen.Mirrors board) (forest : Forest) :
    (screen.draw (.message board.messages.length) forest).Mirrors
      { board with messages := board.messages ++ [.ofAssistant forest] } := by
  constructor
  · intro target other drawn
    simp only [draw] at drawn
    split at drawn
    · next here =>
      subst here
      simp only [Board.forest?, List.getElem?_concat_length, Option.bind_some]
      exact drawn
    · exact forest?_append_of_some _ (mirrors.faithful target other drawn)
  · intro index message found assistant something
    simp only [draw]
    split
    · rfl
    · next elsewhere =>
      have within : index < board.messages.length := by
        have last := (List.getElem?_eq_some_iff.mp found).1
        rw [List.length_append, List.length_singleton] at last
        have other : index ≠ board.messages.length := fun same => elsewhere (by rw [same])
        omega
      rw [List.getElem?_append_left within] at found
      exact mirrors.messages index message found assistant something
  · intro something
    exact mirrors.live something

theorem Mirrors.redrawLive (mirrors : screen.Mirrors board) (forest : Forest) :
    (screen.draw .live forest).Mirrors { board with live := forest } := by
  constructor
  · intro target other drawn
    cases target with
    | live => exact drawn
    | message index => exact mirrors.faithful (.message index) other drawn
  · intro index message found assistant something
    exact mirrors.messages index message found assistant something
  · intro something
    rfl

/-! ### A chat that is loaded -/

theorem mem_drawn {messages : List Message} {index : Nat} :
    index ∈ Board.drawn messages ↔ ∃ message, messages[index]? = some message ∧
      message.speaker = .assistant ∧ message.content.forest ≠ [] := by
  have said : ∀ speaker : Speaker, (speaker == .assistant) = true ↔ speaker = .assistant := by
    intro speaker
    cases speaker <;> decide
  simp [Board.drawn, List.mem_zipIdx_iff_getElem?, said]

theorem obey_display (board : Board) (errorTtl : Nat) (screen : Screen) (first target : Target) :
    (board.display errorTtl (.render first)).foldl Screen.obey screen target =
      if target = first then (board.forest? target).or (screen target) else screen target := by
  simp only [Board.display]
  by_cases same : target = first
  · subst same
    cases found : board.forest? target <;> simp [Screen.obey, draw]
  · cases board.forest? first <;> simp [Screen.obey, draw, same]

/-- Redrawing targets shows at each of them what the board has there. -/
theorem obeyAll_display (board : Board) (errorTtl : Nat) (targets : List Target) (screen : Screen)
    (target : Target) :
    let redrawn := (targets.flatMap fun target => board.display errorTtl (.render target)).foldl
      Screen.obey screen
    (target ∈ targets → redrawn target = (board.forest? target).or (screen target)) ∧
      (target ∉ targets → redrawn target = screen target) := by
  induction targets generalizing screen with
  | nil => simp
  | cons first targets ih =>
    obtain ⟨again, apart⟩ := ih ((board.display errorTtl (.render first)).foldl Screen.obey screen)
    rw [obey_display] at again apart
    simp only [List.flatMap_cons, List.foldl_append, List.mem_cons]
    constructor
    · intro listed
      by_cases later : target ∈ targets
      · rw [again later]
        split
        · cases board.forest? target <;> rfl
        · rfl
      · rw [apart later, if_pos (listed.resolve_right later)]
    · intro absent
      rw [not_or] at absent
      rw [apart absent.2, if_neg absent.1]

theorem mirrors_chatLoaded (board : Board) (errorTtl : Nat) (chatId : String)
    (messages : List Message) :
    ((((Board.drawn messages).map Target.message).flatMap fun target =>
        (board.apply (.chatLoaded chatId messages)).1.display errorTtl (.render target)).foldl
      Screen.obey blank).Mirrors (board.apply (.chatLoaded chatId messages)).1 := by
  have redrawn := obeyAll_display (board.apply (.chatLoaded chatId messages)).1 errorTtl
    ((Board.drawn messages).map Target.message) blank
  constructor
  · intro target forest drawn
    by_cases listed : target ∈ (Board.drawn messages).map Target.message
    · rw [(redrawn target).1 listed, blank, Option.or_none] at drawn
      exact drawn
    · rw [(redrawn target).2 listed] at drawn
      cases drawn
  · intro index message found assistant something
    have listed : Target.message index ∈ (Board.drawn messages).map Target.message :=
      List.mem_map_of_mem (mem_drawn.mpr ⟨message, found, assistant, something⟩)
    have shown : (board.apply (.chatLoaded chatId messages)).1.forest? (.message index) =
        message.content.forest? := by
      simp only [Board.forest?]
      rw [found]
      rfl
    rw [(redrawn _).1 listed, shown]
    cases content : message.content with
    | text text => rw [content] at something; exact absurd rfl something
    | components forest => rfl
  · intro something
    exact absurd rfl something

/-! ### Frames -/

/-- A frame keeps the screen true to the board, once its effects are carried out. -/
theorem Mirrors.apply (mirrors : screen.Mirrors board) (errorTtl : Nat) (frame : Frame) :
    ((board.displayAll errorTtl frame).foldl Screen.obey screen).Mirrors (board.apply frame).1 := by
  cases frame with
  | render forest =>
    have found : (board.apply (.render forest)).1.forest? (.message board.messages.length) =
        some forest := by
      simp [Board.apply, Board.forest?, Message.ofAssistant, Content.forest?]
    have drawn : board.displayAll errorTtl (.render forest) =
        [.render (.message board.messages.length) forest] := by
      show (board.apply (.render forest)).1.display errorTtl
        (.render (.message board.messages.length)) ++ [] = _
      rw [Board.display, found]
      rfl
    rw [drawn]
    exact mirrors.render forest
  | update forest => exact mirrors.redrawLive forest
  | append forest => exact mirrors.redrawLive (board.live ++ forest)
  | chatCreated chatId =>
    constructor
    · intro target forest drawn
      cases drawn
    · intro index message found
      cases found
    · intro something
      exact absurd rfl something
  | chatLoaded chatId messages =>
    have reset := mirrors_chatLoaded board errorTtl chatId messages
    rw [List.flatMap_map] at reset
    show (List.foldl Screen.obey screen (Order.reset ::
      ((Board.drawn messages).map fun index => Effect.render (.message index)).flatMap _)).Mirrors _
    rw [List.flatMap_map, List.foldl_cons]
    exact reset
  | systemConfig agents =>
    cases agents with
    | none => exact mirrors
    | some agents => exact mirrors.of_same ⟨rfl, rfl, rfl⟩
  | agentRegistered agent =>
    simp only [Board.displayAll, Board.apply]
    split
    · exact mirrors
    · exact mirrors.of_same ⟨rfl, rfl, rfl⟩
  | _ => exact mirrors.of_same ⟨rfl, rfl, rfl⟩

theorem isSome_forest?_of_render {frame : Frame} {target : Target}
    (asked : .render target ∈ (board.apply frame).2) :
    ((board.apply frame).1.forest? target).isSome = true := by
  cases frame with
  | render forest =>
    cases List.mem_singleton.mp asked
    simp [Board.apply, Board.forest?, Message.ofAssistant, Content.forest?]
  | update forest =>
    cases List.mem_singleton.mp asked
    rfl
  | append forest =>
    cases List.mem_singleton.mp asked
    rfl
  | chatCreated chatId =>
    rcases List.mem_cons.mp asked with reset | asked
    · cases reset
    · cases List.mem_singleton.mp asked
  | chatLoaded chatId messages =>
    rcases List.mem_cons.mp asked with reset | asked
    · cases reset
    · obtain ⟨index, drawn, same⟩ := List.mem_map.mp asked
      cases same
      obtain ⟨message, found, -, something⟩ := mem_drawn.mp drawn
      simp only [Board.apply, Board.forest?, found, Option.bind_some]
      cases content : message.content with
      | text text => rw [content] at something; exact absurd rfl something
      | components forest => rfl
  | systemConfig agents => cases agents <;> cases asked
  | agentRegistered agent =>
    simp only [Board.apply] at asked
    split at asked <;> cases asked
  | saved component => cases List.mem_singleton.mp asked
  | saveError reason =>
    rcases List.mem_cons.mp asked with other | asked
    · cases other
    · cases List.mem_singleton.mp asked
  | combineError reason => cases List.mem_singleton.mp asked
  | _ => cases asked

theorem Mirrors.handle {client : Client} (mirrors : screen.Mirrors client.board)
    (credential : Option String) (sessionId : String) (input : Input) :
    ((client.handle credential sessionId input).2.foldl Screen.obey screen).Mirrors
      (client.handle credential sessionId input).1.board := by
  have displays := client.displays_handle credential sessionId input
  rw [← foldl_filter_isDisplay]
  generalize (client.handle credential sessionId input).1.board = board at displays
  generalize (client.handle credential sessionId input).2.filter Order.isDisplay = orders
    at displays
  cases displays with
  | frame read => exact mirrors.apply _ _
  | message isOpen => exact mirrors.pushUserMessage _
  | expiry shown => exact mirrors.of_same (Board.sameConversation_expire _ _ _)
  | still => exact mirrors

end Screen

/-! ### Sessions -/

namespace System

variable {system : System} {move : Move} {after : System × List Record} {screen : Screen}

theorem Turn.mirrors (turn : Turn system move after)
    (mirrors : screen.Mirrors system.client.board) :
    (after.2.foldl Screen.paint screen).Mirrors after.1.client.board := by
  cases turn with
  | handled sessionId taken goesOn =>
    rw [client_carryOut, records_carryOut, World.foldl_performAll Screen.paint_perform]
    exact mirrors.handle system.credential sessionId _
  | @ending left running next =>
    have silent : (lastOrders { system with commands := left }).filter Order.isDisplay = [] :=
      filter_eq_nil_of_false fun order => not_isDisplay_of_mem_lastOrders
    rw [client_stop, records_stop, List.foldl_append,
      World.foldl_deafen Screen.paint_perform fun _ _ => rfl,
      World.foldl_performAll Screen.paint_perform, ← Screen.foldl_filter_isDisplay, silent]
    exact mirrors
  | _ => exact mirrors

theorem mirrors_run (mirrors : screen.Mirrors system.client.board) (moves : List Move) :
    ((system.run moves).2.foldl Screen.paint screen).Mirrors (system.run moves).1.client.board := by
  induction moves generalizing system screen with
  | nil => exact mirrors
  | cons move moves ih =>
    have next := (turn_step system move).mirrors mirrors
    rw [run, List.foldl_append]
    exact ih next

/-- **The screen shows what the board says.**  Whatever frames, messages of the user and
    expiries come in, in any order and among anything else, after every move each forest on
    the screen is the one that the board has at its target, every message of the assistant
    with a forest to draw is on the screen, and so is the live buffer unless it
    is empty.  A frame never asks to draw what the board that it left does not have. -/
theorem screen_mirrors_board (settings : Settings) (credential : Option String)
    (moves : List Move) :
    (((start settings credential).run moves).2.foldl Screen.paint Screen.blank).Mirrors
        ((start settings credential).run moves).1.client.board ∧
      ∀ (board : Board) (frame : Frame) (target : Target),
        .render target ∈ (board.apply frame).2 →
          ((board.apply frame).1.forest? target).isSome = true := by
  refine ⟨mirrors_run Screen.mirrors_blank moves, ?_⟩
  intro board frame target asked
  exact Screen.isSome_forest?_of_render asked

end System
end Liveboard.Session
