/-
  Liveboard/Proofs/Session/Publishing.lean
  ========================================
  **What watchers are shown of the board.**

  The board is the loop's own; others read the copy that it published last.  An input that
  changes the board publishes it before the next one is taken (`Client.told_handle`), so
  between inputs the copy is the board.

  Some events come to nothing: text that is no frame, news of a link that is over, a timer
  whose link, request or error text is.  They leave the loop and its timers as they were
  (`Client.handle_of_disregards`).
-/
import Liveboard.Proofs.Session.Display

namespace Liveboard.Session

/-! ### The board last published -/

/-- The board that watchers see after a record, if they saw this one before it. -/
def Board.seen (board : Board) : Record → Board
  | .published newer => newer
  | _ => board

def Board.told (board : Board) : Order → Board
  | .publish newer => newer
  | _ => board

/-- The board last published, as the records of a run tell. -/
def shown (records : List Record) : Board := records.foldl Board.seen .empty

theorem World.seen_perform (world : World) (order : Order) (board : Board) :
    (world.perform order).2.foldl Board.seen board = board.told order := by
  cases order with
  | offer channel envelope => simp only [perform]; split <;> rfl
  | _ => rfl

theorem Order.IsOwn.told {order : Order} (own : order.IsOwn) (board : Board) :
    board.told order = board := by
  cases own with
  | outward outward => cases order <;> first | rfl | cases outward
  | _ => rfl

theorem told_of_isOwn {orders : List Order} (own : ∀ order ∈ orders, order.IsOwn) (board : Board) :
    orders.foldl Board.told board = board := by
  induction orders with
  | nil => rfl
  | cons order orders ih =>
    rw [List.foldl_cons, (own order List.mem_cons_self).told,
      ih fun order h => own order (List.mem_cons_of_mem _ h)]

namespace Client

/-- A frame that is dispatched is followed by the board that it leaves. -/
theorem told_dispatch (client : Client) (text : String) :
    (client.dispatch text).2.foldl Board.told client.board = (client.dispatch text).1.board := by
  unfold dispatch
  split
  · rfl
  · simp only [List.foldl_append]
    rfl

theorem told_onNews (client : Client) (generation : Nat) (news : LinkNews) (sessionId : String) :
    (client.onNews generation news sessionId).2.foldl Board.told client.board =
      (client.onNews generation news sessionId).1.board := by
  cases given : client.dispatches? (.link generation news) with
  | some dispatch => rw [onNews_of_dispatches given, told_dispatch]
  | none =>
    have kept := congrArg Client.board (onNews_of_nothing given sessionId)
    rw [told_of_isOwn fun order => isOwn_of_mem_onNews given, kept]

theorem told_onWake (client : Client) (credential : Option String) (wake : Wake) :
    (client.onWake credential wake).2.foldl Board.told client.board =
      (client.onWake credential wake).1.board := by
  cases wake with
  | reconnect => exact told_of_isOwn (fun order => isOwn_of_mem_connect) _
  | resume generation chatId =>
    exact told_of_isOwn
      (fun order ordered => .outward (Connection.isOutward_of_mem_resume ordered)) _
  | saveDeadline request => exact told_of_isOwn (fun order => isOwn_of_mem_expire) _
  | errorExpiry topic token =>
    simp only [onWake]
    split <;> rfl

theorem told_onCommand (client : Client) (credential : Option String) (command : Command) :
    (client.onCommand credential command).2.foldl Board.told client.board =
      (client.onCommand credential command).1.board := by
  cases command with
  | connect => exact told_of_isOwn (fun order => isOwn_of_mem_connect) _
  | disconnect =>
    refine told_of_isOwn (fun order => isOwn_of_mem_hangUp ?_) _
    exact fun reason same => nomatch same
  | shutdown => rfl
  | send action => exact told_of_isOwn (fun order => isOwn_of_mem_send) _
  | chat content ticket =>
    simp only [onCommand, chat]
    split
    · rw [List.foldl_append]
      rfl
    · rfl
  | save action ticket =>
    rw [onCommand, board_save]
    exact told_of_isOwn (fun order => isOwn_of_mem_save) _

/-- What is published last while an input is handled is the board that the input leaves. -/
theorem told_handle (client : Client) (credential : Option String) (sessionId : String)
    (input : Input) :
    (client.handle credential sessionId input).2.foldl Board.told client.board =
      (client.handle credential sessionId input).1.board := by
  cases input with
  | command command => exact told_onCommand client credential command
  | event event =>
    rcases event with ⟨generation, news⟩ | wake
    · exact told_onNews client generation news sessionId
    · exact told_onWake client credential wake

end Client

/-! ### Events that come to nothing -/

/-- The deadline of a request that is open no more settles nothing. -/
theorem Confirmations.expire_of_absent {ρ α : Type} {slot : Confirmations ρ} {id : Nat}
    (absent : ∀ entry ∈ slot.unsettled, entry.1 ≠ id) :
    slot.expire (α := α) id = (slot, []) := by
  have notCurrent : ∀ entry ∈ slot.current, entry.1 ≠ id := by
    intro entry current
    exact absent entry (List.mem_append.mpr (.inl (Option.mem_toList.mpr current)))
  have unheard : slot.displaced.lookup id = none := by
    rw [List.lookup_eq_none_iff]
    intro entry displaced
    simpa using (absent entry (List.mem_append.mpr (.inr displaced))).symm
  unfold expire
  split
  · next currentId reply current =>
    rw [if_neg (notCurrent _ current)]
    simp only [expire.expireDisplaced, unheard]
  · simp only [expire.expireDisplaced, unheard]

/-- An event that the loop has no use for when it takes it. -/
inductive Client.Disregards (client : Client) : Event → Prop where
  | malformed {generation : Nat} {text : String} {fault : FrameError}
      (garbled : Frame.parse text = .error fault) :
      Disregards client (.link generation (.reported (.frame text)))
  /-- A frame of a type that is not known. -/
  | unknown {generation : Nat} {text typeName : String}
      (parsed : Frame.parse text = .ok (.unknown typeName)) :
      Disregards client (.link generation (.reported (.frame text)))
  /-- News of a link that was superseded, closed or disconnected. -/
  | stale {generation : Nat} {news : LinkNews}
      (late : generation ≠ client.connection.generation ∨ client.connection.isLive = false) :
      Disregards client (.link generation news)
  | resume {generation : Nat} {chatId : String}
      (late : generation ≠ client.connection.generation ∨ client.connection.isOpen = false) :
      Disregards client (.wake (.resume generation chatId))
  /-- The deadline of a save request that is open no more. -/
  | deadline {request : Nat} (closed : ∀ entry ∈ client.saves.unsettled, entry.1 ≠ request) :
      Disregards client (.wake (.saveDeadline request))
  /-- The expiry of an error text that was taken away or replaced. -/
  | expiry {topic : Topic} {token : Nat}
      (gone : (client.board.notice topic).text = none ∨
        (client.board.notice topic).token ≠ token) :
      Disregards client (.wake (.errorExpiry topic token))

/-- The order shows the same board again, or lets go of a queue that nobody uses. -/
def Order.IsMoot (board : Board) (order : Order) : Prop :=
  order = .publish board ∨ ∃ channel, order = .release channel

namespace Client

variable {client : Client}

theorem dispatch_of_unknown {text typeName : String}
    (parsed : Frame.parse text = .ok (.unknown typeName)) :
    client.dispatch text = (client, [.publish client.board]) := by
  simp only [dispatch, parsed, Board.apply, performAll, List.nil_append]

theorem dispatch_of_malformed {text : String} {fault : FrameError}
    (garbled : Frame.parse text = .error fault) : client.dispatch text = (client, []) := by
  simp only [dispatch, garbled]

/-- A frame whose dispatch would change nothing changes nothing, of whatever link it is. -/
theorem onNews_of_vain_frame {text : String} {orders : List Order}
    (vain : client.dispatch text = (client, orders))
    (moot : ∀ order ∈ orders, order.IsMoot client.board) (generation : Nat) (sessionId : String) :
    ∃ orders, client.onNews generation (.reported (.frame text)) sessionId = (client, orders) ∧
      ∀ order ∈ orders, order.IsMoot client.board := by
  by_cases late : generation ≠ client.connection.generation ∨ client.connection.isLive = false
  · obtain ⟨channels, same⟩ := onNews_of_late late (.reported (.frame text)) sessionId
    refine ⟨_, same, fun order ordered => ?_⟩
    obtain ⟨channel, -, rfl⟩ := List.mem_map.mp ordered
    exact .inr ⟨channel, rfl⟩
  · rw [not_or, Decidable.not_not, Bool.not_eq_false] at late
    obtain ⟨rfl, live⟩ := late
    have given := dispatches?_of_current live (.reported (.frame text))
    exact ⟨orders, by rw [onNews_of_dispatches given, vain], moot⟩

/-- An event that is disregarded leaves the loop as it was, and asks for nothing that matters. -/
theorem handle_of_disregards {event : Event} (disregards : client.Disregards event)
    (credential : Option String) (sessionId : String) :
    ∃ orders, client.handle credential sessionId (.event event) = (client, orders) ∧
      ∀ order ∈ orders, order.IsMoot client.board := by
  cases disregards with
  | @malformed generation text fault garbled =>
    exact onNews_of_vain_frame (dispatch_of_malformed garbled)
      (fun order none => nomatch none) generation sessionId
  | @unknown generation text typeName parsed =>
    exact onNews_of_vain_frame (dispatch_of_unknown parsed)
      (fun order ordered => .inl (List.mem_singleton.mp ordered)) generation sessionId
  | @stale generation news late =>
    obtain ⟨channels, same⟩ := onNews_of_late late news sessionId
    refine ⟨_, same, fun order ordered => ?_⟩
    obtain ⟨channel, -, rfl⟩ := List.mem_map.mp ordered
    exact .inr ⟨channel, rfl⟩
  | @resume generation chatId late =>
    have nothing : client.connection.resume generation chatId = [] := by
      unfold Connection.resume Connection.send
      rcases late with late | shut
      · rw [if_neg (by simpa using late)]
      · rw [shut]
        split <;> rfl
    refine ⟨[], ?_, fun order none => nomatch none⟩
    simp only [handle, onEvent, onWake, nothing]
  | @deadline request closed =>
    refine ⟨[], ?_, fun order none => nomatch none⟩
    simp only [handle, onEvent, onWake, Confirmations.expire_of_absent closed]
    rfl
  | @expiry topic token gone =>
    have late : client.board.expires topic token = false := by
      rw [Board.expires, Notice.expires]
      rcases gone with none | replaced
      · rw [none]
        exact Bool.and_false _
      · rw [beq_eq_false_iff_ne.mpr replaced]
        rfl
    refine ⟨[], ?_, fun order none => nomatch none⟩
    simp only [handle, onEvent, onWake, late]
    rfl

end Client

/-- Such orders move neither timers nor links, and send nothing. -/
theorem World.performAll_of_moot {board : Board} {orders : List Order}
    (moot : ∀ order ∈ orders, order.IsMoot board) (world : World) :
    (world.performAll orders).1.alarms = world.alarms ∧
      (world.performAll orders).1.links = world.links ∧
      ∀ record ∈ (world.performAll orders).2,
        record = .published board ∨ ∃ channel, record = .released channel := by
  induction orders generalizing world with
  | nil => exact ⟨rfl, rfl, fun record none => nomatch none⟩
  | cons order orders ih =>
    obtain ⟨alarms, links, records⟩ :=
      ih (fun order h => moot order (List.mem_cons_of_mem _ h)) (world.perform order).1
    rw [performAll]
    rcases moot order List.mem_cons_self with rfl | ⟨channel, rfl⟩
    · refine ⟨alarms, links, fun record h => ?_⟩
      rcases List.mem_cons.mp h with rfl | h
      · exact .inl rfl
      · exact records record h
    · refine ⟨alarms, links, fun record h => ?_⟩
      rcases List.mem_cons.mp h with rfl | h
      · exact .inr ⟨channel, rfl⟩
      · exact records record h

namespace System

variable {system : System} {move : Move} {after : System × List Record}

/-! ### Runs -/

theorem published_foldl_observe (records : List Record) (system : System) :
    (records.foldl observe system).published = records.foldl Board.seen system.published := by
  induction records generalizing system with
  | nil => rfl
  | cons record records ih =>
    rw [List.foldl_cons, ih]
    cases record <;> rfl

theorem published_carryOut (system : System) (client : Client) (orders : List Order) :
    (carryOut system client orders).1.published = orders.foldl Board.told system.published := by
  rw [← World.foldl_performAll World.seen_perform system.world]
  exact published_foldl_observe _ _

theorem told_lastOrders (system : System) (board : Board) :
    system.lastOrders.foldl Board.told board = board :=
  told_of_isOwn (fun _ => isOwn_of_mem_lastOrders) board

theorem published_stop (system : System) : system.stop.1.published = system.published := by
  rw [stop_eq, lastTurn, published_carryOut]
  exact told_lastOrders system _

theorem seen_stop (system : System) (board : Board) :
    system.stop.2.foldl Board.seen board = board := by
  rw [records_stop, List.foldl_append, World.foldl_performAll World.seen_perform, told_lastOrders,
    World.foldl_deafen World.seen_perform fun board channel => rfl]

/-- If watchers see the board before a move, they do after it; and of its records the last
    that publishes shows what they see. -/
theorem Turn.published (turn : Turn system move after)
    (current : system.published = system.client.board) :
    after.1.published = after.1.client.board ∧
      after.2.foldl Board.seen system.published = after.1.published := by
  cases turn with
  | @handled move input sessionId taken goesOn =>
    have told := system.client.told_handle system.credential sessionId input
    have same : (system.without input).published = system.published := by cases input <;> rfl
    rw [published_carryOut, client_carryOut, records_carryOut,
      World.foldl_performAll World.seen_perform, same, current, told]
    exact ⟨rfl, rfl⟩
  | ending running next =>
    rw [published_stop, client_stop, seen_stop]
    exact ⟨current, rfl⟩
  | surroundings move => exact ⟨current, rfl⟩
  | submission nothing ask batches running => exact ⟨current, rfl⟩
  | idle nothing credential handles batches results => exact ⟨current, rfl⟩

theorem published_run (settings : Settings) (credential : Option String) (moves : List Move) :
    ((start settings credential).run moves).1.published =
      ((start settings credential).run moves).1.client.board :=
  run_induction (P := fun system => system.published = system.client.board) rfl
    (fun turn current => (turn.published current).1) moves

/-- The records of a run tell what watchers see at its end. -/
theorem shown_run (settings : Settings) (credential : Option String) (moves : List Move) :
    shown ((start settings credential).run moves).2 =
      ((start settings credential).run moves).1.published := by
  refine history_induction (P := fun history system =>
    shown ((start settings credential).run history).2 = system.published) rfl ?_ moves
  intro history move ih
  have turn := turn_step ((start settings credential).run history).1 move
  rw [records_run_concat, shown, List.foldl_append, ← shown, ih]
  exact (turn.published (published_run settings credential history)).2

/-- What a move does when the event that it takes comes to nothing: the loop, its timers and
    its links stay as they were, and nothing happens but that the same board is published
    again, or that an unused queue is let go of. -/
structure Unmoved (system : System) (after : System × List Record) : Prop where
  client : after.1.client = system.client
  alarms : after.1.world.alarms = system.world.alarms
  links : after.1.world.links = system.world.links
  records : ∀ record ∈ after.2,
    record = .published system.client.board ∨ ∃ channel, record = .released channel

theorem Turn.unmoved {event : Event} (turn : Turn system move after)
    (disregards : system.client.Disregards event) (taken : Takes (.event event) system move) :
    Unmoved system after := by
  obtain ⟨sessionId, rfl⟩ := turn.of_takes taken (by simp)
  obtain ⟨orders, same, moot⟩ :=
    Client.handle_of_disregards disregards system.credential sessionId
  obtain ⟨alarms, links, records⟩ :=
    World.performAll_of_moot moot (system.without (.event event)).world
  rw [same]
  constructor
  · rw [client_carryOut]
  · rw [world_carryOut, alarms, alarms_without]
  · rw [world_carryOut, links]
    rfl
  · rw [records_carryOut]
    exact records

/-- **Watchers see the board itself.**  After every run, whatever the order of its commands,
    frames and timers, what was published last is the loop's own board, and so it is after
    each of its moves.  If the loop then takes an event that comes to nothing (text that is no
    frame, a frame of unknown type, news of a link that is not current any more, or a timer
    whose link, request or error text is not), then the board, the open save requests, the
    connection and all timers are as before, and no frame is sent. -/
theorem published_state_is_current (settings : Settings) (credential : Option String)
    (moves : List Move) :
    ((start settings credential).run moves).1.published =
        ((start settings credential).run moves).1.client.board ∧
      shown ((start settings credential).run moves).2 =
        ((start settings credential).run moves).1.client.board ∧
      ∀ event move, ((start settings credential).run moves).1.client.Disregards event →
        Takes (.event event) ((start settings credential).run moves).1 move →
          Unmoved ((start settings credential).run moves).1
            (((start settings credential).run moves).1.step move) := by
  refine ⟨published_run settings credential moves, ?_, fun event move disregards taken => ?_⟩
  · rw [shown_run, published_run]
  · exact (turn_step _ move).unmoved disregards taken

/-- A link opens and hears what is no frame; the user disconnects, and the link still reports
    that it closed. -/
theorem noise_and_late_close_disregarded :
    let session (moves : List Move) : System :=
      ((start ⟨"ws://localhost/ui", ["render"], 3, 1, 10, 5⟩ (some "token")).run moves).1
    let opening : List Move :=
      [.submit .connect, .takeCommand, .world (.linkOpens 1 8), .takeEvent "session",
        .world (.linkReports 1 (.frame "noise"))]
    let closing : List Move :=
      opening ++ [.takeEvent "", .submit .disconnect, .takeCommand,
        .world (.linkReports 1 .closed)]
    Unmoved (session opening) ((session opening).step (.takeEvent "")) ∧
      Unmoved (session closing) ((session closing).step (.takeEvent "")) := by
  intro session opening closing
  have current (moves : List Move) := (published_state_is_current
    ⟨"ws://localhost/ui", ["render"], 3, 1, 10, 5⟩ (some "token") moves).2.2
  have garbled : Frame.parse "noise" = .error (.json .parse) := by rfl
  have noise : Takes (.event (.link 1 (.reported (.frame "noise")))) (session opening)
      (.takeEvent "") := by rfl
  have close : Takes (.event (.link 1 (.reported .closed))) (session closing)
      (.takeEvent "") := by rfl
  exact ⟨current opening _ _ (.malformed garbled) noise,
    current closing _ _ (.stale (.inr rfl)) close⟩

end System
end Liveboard.Session
