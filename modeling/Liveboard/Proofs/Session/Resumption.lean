/-
  Liveboard/Proofs/Session/Resumption.lean
  ========================================
  **Loading a chat again on a new link.**

  When a link opens while a chat is active, a timer is armed to load that chat.  Each such
  timer belongs to an opening, by its generation and its hour (`Founded`), and a generation
  opens once (`Entered`), so no link has two (`countP_resumes_le_one`).  The end of a link
  does not take its timer back; a late one does no harm because its generation is not that
  of the open link (`Resumption`).  As long as the link is live its timer is not lost
  (`Owes`).  `chats_resumed` puts this together for every run.
-/
import Liveboard.Proofs.Session.Comeback
import Liveboard.Proofs.Session.Openings
import Mathlib.Data.List.Nodup

namespace Liveboard.Session

/-- What the loop knows when the current link opens. -/
structure Opening where
  generation : Nat
  /-- The queue for frames to the server. -/
  channel : Nat
  activeChat : Option String
  time : Nat
deriving DecidableEq

/-- The timer is to load a chat on the link of this generation. -/
def Wake.isResume (generation : Nat) : Wake → Bool
  | .resume other _ => other == generation
  | _ => false

theorem Event.wakes_isResume_iff {event : Event} {generation : Nat} :
    event.wakes (Wake.isResume generation) = true ↔
      ∃ chatId, event = .wake (.resume generation chatId) := by
  constructor
  · intro wakes
    rcases event with news | wake
    · cases wakes
    · cases wake with
      | resume other chatId => exact ⟨chatId, by rw [beq_iff_eq.mp wakes]⟩
      | _ => cases wakes
  · rintro ⟨chatId, rfl⟩
    exact beq_self_eq_true generation

/-! ### One input -/

namespace Connection

variable {connection : Connection}

theorem handle_of_opened (live : connection.isLive = true) (channel : Nat) (sessionId : String)
    (activeChat : Option String) :
    connection.handle connection.generation (.opened channel) sessionId activeChat =
      ((connection.onOpen channel sessionId activeChat).1,
        (connection.onOpen channel sessionId activeChat).2, none) := by
  simp [handle, live]

/-- A link that opens arms the timer for the chat that is active, and nothing else. -/
theorem alarms_onOpen (connection : Connection) (channel : Nat) (sessionId : String)
    (activeChat : Option String) (now : Nat) :
    (connection.onOpen channel sessionId activeChat).2.filterMap (Order.alarm? now) =
      activeChat.toList.map fun chatId =>
        ⟨now + connection.settings.resumeDelay, .resume connection.generation chatId, true⟩ := by
  obtain ⟨settings, phase, generation, token, before, outbound, link, isOnline⟩ := connection
  cases outbound <;> cases activeChat <;> rfl

end Connection

namespace Client

variable {client : Client} {credential : Option String} {sessionId : String} {input : Input}
  {opening : Opening} {now generation : Nat}

def opening? (client : Client) (now : Nat) : Input → Option Opening
  | .event (.link generation (.opened channel)) =>
    if generation == client.connection.generation && client.connection.isLive then
      some ⟨generation, channel, client.board.activeChat, now⟩
    else none
  | _ => none

theorem opening?_eq_some_iff :
    client.opening? now input = some opening ↔
      client.connection.isLive = true ∧
        input = .event (.link client.connection.generation (.opened opening.channel)) ∧
        opening = ⟨client.connection.generation, opening.channel, client.board.activeChat, now⟩ := by
  constructor
  · intro opens
    unfold opening? at opens
    split at opens
    · next generation channel =>
      split at opens
      · next current =>
        simp only [Bool.and_eq_true, beq_iff_eq] at current
        obtain ⟨rfl, live⟩ := current
        cases opens
        exact ⟨live, rfl, rfl⟩
      · cases opens
    · cases opens
  · rintro ⟨live, rfl, same⟩
    rw [same]
    simp [opening?, live]

theorem handle_of_opening (opens : client.opening? now input = some opening) :
    client.handle credential sessionId input =
      ({ client with
          connection :=
            (client.connection.onOpen opening.channel sessionId client.board.activeChat).1 },
        (client.connection.onOpen opening.channel sessionId client.board.activeChat).2) := by
  obtain ⟨live, rfl, -⟩ := opening?_eq_some_iff.mp opens
  simp only [handle, onEvent, onNews, Connection.handle_of_opened live]

theorem alarms_of_opening (opens : client.opening? now input = some opening) :
    (client.handle credential sessionId input).2.filterMap (Order.alarm? now) =
      opening.activeChat.toList.map fun chatId =>
        ⟨opening.time + client.connection.settings.resumeDelay,
          .resume opening.generation chatId, true⟩ := by
  rw [handle_of_opening opens, Connection.alarms_onOpen, (opening?_eq_some_iff.mp opens).2.2]

/-- No other input arms a timer to load a chat. -/
theorem not_isResume_of_mem_handle {order : Order} {alarm : Alarm}
    (none : client.opening? now input = none)
    (ordered : order ∈ (client.handle credential sessionId input).2)
    (armed : order.alarm? now = some alarm) : alarm.wake.isResume generation = false := by
  cases asked_handle ordered with
  | attempt | endScope => cases armed
  | reconnect | deadline => cases armed; rfl
  | @resume channel chatId live active =>
    have opens : client.opening? now
        (.event (.link client.connection.generation (.opened channel))) =
          some ⟨client.connection.generation, channel, client.board.activeChat, now⟩ :=
      opening?_eq_some_iff.mpr ⟨live, rfl, rfl⟩
    rw [none] at opens
    cases opens
  | plain plain =>
    have outlives := (Order.wake_of_isPlain plain armed).2
    cases wake : alarm.wake with
    | resume other chatId => rw [wake] at outlives; cases outlives
    | _ => rfl

theorem countP_resumes_handle :
    ((client.handle credential sessionId input).2.filterMap (Order.alarm? now)).countP
        (fun alarm => alarm.wake.isResume generation) ≤
      ((client.opening? now input).filter fun opening =>
        opening.generation == generation).toList.length := by
  cases opens : client.opening? now input with
  | none =>
    refine Nat.le_of_eq (List.countP_eq_zero.mpr fun alarm asked => ?_)
    obtain ⟨order, ordered, armed⟩ := List.mem_filterMap.mp asked
    rw [not_isResume_of_mem_handle opens ordered armed]
    exact Bool.false_ne_true
  | some opening =>
    rw [alarms_of_opening opens]
    cases opening.activeChat with
    | none => exact Nat.zero_le _
    | some chatId =>
      cases same : opening.generation == generation <;>
        simp [Wake.isResume, Option.filter_some, same]

end Client

namespace System

variable {system : System} {move : Move} {after : System × List Record} {opening : Opening}
  {known : List Opening} {delay : Nat}

def opening? (system : System) (move : Move) : Option Opening :=
  (system.input? move).bind (system.client.opening? system.world.now)

/-- The links that the loop took to have opened in the course of a run. -/
def openings (system : System) (moves : List Move) : List Opening := system.noted opening? moves

theorem of_opening? (opens : system.opening? move = some opening) :
    ∃ input, Takes input system move ∧
      system.client.opening? system.world.now input = some opening :=
  Option.bind_eq_some_iff.mp opens

theorem opening?_of_takes {input : Input} (taken : Takes input system move) :
    system.opening? move = system.client.opening? system.world.now input := by
  rw [opening?, taken, Option.bind_some]

theorem takes?_of_opening? (opens : system.opening? move = some opening) :
    system.takes? move = some (.link opening.generation (.opened opening.channel)) := by
  obtain ⟨input, taken, opens⟩ := of_opening? opens
  obtain ⟨-, rfl, same⟩ := Client.opening?_eq_some_iff.mp opens
  rw [takes?_eq_some_iff.mpr taken, same]

/-! ### One turn -/

theorem Turn.of_opening (turn : Turn system move after)
    (opens : system.opening? move = some opening) :
    (after.1.client.connection.isOpen = true ∧
      after.1.client.connection.generation = opening.generation ∧
      after.1.client.connection.outbound = some opening.channel) ∧
    opening.generation = system.client.connection.generation ∧
    after.1.world.alarms.armed = system.world.alarms.armed ++
      opening.activeChat.toList.map fun chatId =>
        ⟨opening.time + system.client.connection.settings.resumeDelay,
          .resume opening.generation chatId, true⟩ := by
  obtain ⟨input, taken, opens⟩ := of_opening? opens
  obtain ⟨live, isNews, same⟩ := Client.opening?_eq_some_iff.mp opens
  have keeps : input ≠ .command .disconnect := by rw [isNews]; simp
  obtain ⟨sessionId, rfl⟩ := turn.of_takes taken (by rw [isNews]; simp)
  have current : opening.generation = system.client.connection.generation := by rw [same]
  refine ⟨?_, current, ?_⟩
  · rw [client_carryOut, Client.handle_of_opening opens, current]
    exact ⟨rfl, rfl, rfl⟩
  · rw [world_carryOut, World.armed_performAll (not_mem_handle_of_not_disconnect keeps),
      alarms_without, now_without, Client.alarms_of_opening opens]

/-- Any other turn leaves the connection, ends it, or starts the next one. -/
theorem Turn.of_unopened (turn : Turn system move after) (none : system.opening? move = none) :
    after.1.client.connection = system.client.connection ∨
      (after.1.client.connection.isLive = false ∧
        after.1.client.connection.generation = system.client.connection.generation) ∨
      (after.1.client.connection.isOpen = false ∧
        after.1.client.connection.generation = system.client.connection.generation + 1) := by
  cases turn with
  | @handled move input sessionId taken goesOn =>
    rw [client_carryOut]
    have bears := system.client.bears_handle system.credential sessionId input
    generalize (system.client.handle system.credential sessionId input).1.connection = next
      at bears ⊢
    cases bears with
    | starts connects given free => exact .inr (.inr ⟨rfl, rfl⟩)
    | closes closes => exact .inr (.inl ⟨rfl, rfl⟩)
    | hangsUp => exact .inr (.inl ⟨rfl, rfl⟩)
    | @opens channel sessionId activeChat live =>
      have opens : system.opening? move = some ⟨system.client.connection.generation, channel,
          system.client.board.activeChat, system.world.now⟩ := by
        rw [opening?_of_takes taken]
        exact Client.opening?_eq_some_iff.mpr ⟨live, rfl, rfl⟩
      rw [none] at opens
      cases opens
    | stays still whole keeps => exact .inl rfl
  | ending running next =>
    rw [client_stop]
    exact .inr (.inl ⟨rfl, rfl⟩)
  | _ => exact .inl rfl

/-- A timer to load a chat is armed for an opening. -/
theorem Turn.of_mem_resumes {alarm : Alarm} {generation : Nat} {chatId : String}
    (turn : Turn system move after) (h : alarm ∈ after.1.world.alarms.armed)
    (resumes : alarm.wake = .resume generation chatId) :
    alarm ∈ system.world.alarms.armed ∨ ∃ opening, system.opening? move = some opening ∧
      opening.generation = generation ∧ opening.activeChat = some chatId ∧
      alarm.due = opening.time + system.client.connection.settings.resumeDelay := by
  cases opens : system.opening? move with
  | some opening =>
    rw [(turn.of_opening opens).2.2] at h
    refine (List.mem_append.mp h).imp_right fun new => ⟨opening, rfl, ?_⟩
    obtain ⟨active, among, rfl⟩ := List.mem_map.mp new
    cases resumes
    exact ⟨rfl, Option.mem_toList.mp among, rfl⟩
  | none =>
    rcases turn.armed_or_asked h with before | ⟨input, sessionId, order, taken, ordered, armed⟩
    · exact .inl before
    · rw [opening?_of_takes taken] at opens
      have other : alarm.wake.isResume generation = false :=
        Client.not_isResume_of_mem_handle opens ordered armed
      rw [resumes, Wake.isResume, beq_self_eq_true] at other
      cases other

/-- Time passes while an event waits to be taken. -/
def Lags (system : System) (move : Move) : Prop :=
  system.world.events ≠ [] ∧ system.world.now < (system.step move).1.world.now

theorem Turn.events_of_passes (turn : Turn system move after)
    (passes : system.world.now < after.1.world.now) :
    after.1.world.events = system.world.events := by
  cases turn with
  | handled =>
    rw [world_carryOut, World.now_performAll, now_without] at passes
    exact absurd passes (Nat.lt_irrefl _)
  | ending =>
    rw [world_stop, World.now_deafen, World.now_performAll] at passes
    exact absurd passes (Nat.lt_irrefl _)
  | surroundings move =>
    rcases World.now_step system.world move with same | ⟨millis, rfl⟩
    · exact absurd same (Nat.ne_of_gt passes)
    · rfl
  | _ => rfl

/-- An alarm that rings was armed, and due. -/
theorem armed_of_posts? {wake : Wake} (rings : system.posts? move = some (.wake wake)) :
    ∃ alarm ∈ system.world.alarms.armed, alarm.wake = wake ∧ alarm.due ≤ system.world.now := by
  cases move with
  | world move =>
    cases move with
    | ring index =>
      obtain ⟨⟨_, later⟩, rung, same⟩ := Option.map_eq_some_iff.mp rings
      cases same
      obtain ⟨alarm, found, due, wake, -⟩ := World.ring?_eq_some rung
      exact ⟨alarm, List.mem_of_getElem? found, wake, due⟩
    | linkOpens | linkFails | linkReports =>
      simp only [posts?, World.posts?] at rings
      split at rings <;> cases rings
    | _ => cases rings
  | _ => cases rings

/-! ### What was opened, and what is pending for it -/

/-- The current link is among those that opened, or has yet to open. -/
structure Entered (known : List Opening) (connection : Connection) : Prop where
  distinct : (known.map Opening.generation).Nodup
  begun : ∀ opening ∈ known, opening.generation ≤ connection.generation
  current : ∀ opening ∈ known, opening.generation = connection.generation →
    connection.isLive = true →
      connection.isOpen = true ∧ connection.outbound = some opening.channel

theorem Entered.turn (entered : Entered known system.client.connection)
    (turn : Turn system move after)
    (fresh : ∀ opening, system.opening? move = some opening →
      ∀ other ∈ known, other.generation ≠ opening.generation) :
    Entered (known ++ (system.opening? move).toList) after.1.client.connection := by
  cases opens : system.opening? move with
  | some opening =>
    obtain ⟨⟨isOpen, now, held⟩, before, -⟩ := turn.of_opening opens
    refine ⟨?_, ?_, ?_⟩
    · rw [Option.toList_some, List.map_append, List.nodup_append]
      refine ⟨entered.distinct, List.pairwise_singleton _ _, ?_⟩
      intro generation earlier other new same
      obtain ⟨one, among, rfl⟩ := List.mem_map.mp earlier
      rw [List.mem_singleton.mp new] at same
      exact fresh opening opens one among same
    · intro other among
      rw [now]
      rcases List.mem_append.mp among with among | new
      · rw [before]
        exact entered.begun other among
      · exact Nat.le_of_eq (congrArg Opening.generation (List.mem_singleton.mp new))
    · intro other among same live
      rcases List.mem_append.mp among with among | new
      · rw [now] at same
        exact absurd same (fresh opening opens other among)
      · rw [List.mem_singleton.mp new]
        exact ⟨isOpen, held⟩
  | none =>
    rw [Option.toList_none, List.append_nil]
    rcases turn.of_unopened opens with same | ⟨free, same⟩ | ⟨shut, grown⟩
    · rw [same]
      exact entered
    · refine ⟨entered.distinct, fun other among => ?_, fun other among current live => ?_⟩
      · rw [same]
        exact entered.begun other among
      · rw [free] at live
        cases live
    · refine ⟨entered.distinct, fun other among => ?_, fun other among current live => ?_⟩
      · have earlier := entered.begun other among
        omega
      · have earlier := entered.begun other among
        omega

theorem mem_taken_of_mem_openings {moves : List Move} (among : opening ∈ system.openings moves) :
    .link opening.generation (.opened opening.channel) ∈ system.noted takes? moves :=
  mem_noted.mpr ((mem_noted.mp among).mono takes?_of_opening?)

theorem entered_run (settings : Settings) (credential : Option String) (moves : List Move) :
    Entered ((start settings credential).openings moves)
      ((start settings credential).run moves).1.client.connection := by
  refine history_induction (P := fun history system =>
    Entered ((start settings credential).openings history) system.client.connection) ?_ ?_ moves
  · exact ⟨List.nodup_nil, (fun opening none => nomatch none), fun opening none => nomatch none⟩
  · intro history move entered
    rw [openings, noted_concat]
    refine entered.turn (turn_step _ move) fun opening opens other among same => ?_
    have before := mem_taken_of_mem_openings among
    rw [same] at before
    exact not_opened_before (takes?_of_opening? opens) before

/-- Every timer to load a chat was armed for an opening, and comes no earlier than it should. -/
structure Founded (delay : Nat) (known : List Opening) (system : System) : Prop where
  armed : ∀ alarm ∈ system.world.alarms.armed, ∀ generation chatId,
    alarm.wake = .resume generation chatId → ∃ opening ∈ known,
      opening.generation = generation ∧ opening.activeChat = some chatId ∧
        alarm.due = opening.time + delay
  posted : ∀ generation chatId, .wake (.resume generation chatId) ∈ system.world.events →
    ∃ opening ∈ known, opening.generation = generation ∧ opening.activeChat = some chatId ∧
      opening.time + delay ≤ system.world.now

theorem Founded.turn (founded : Founded delay known system) (turn : Turn system move after)
    (same : system.client.connection.settings.resumeDelay = delay) :
    Founded delay (known ++ (system.opening? move).toList) after.1 := by
  have later := turn.now_le
  constructor
  · intro alarm h generation chatId is
    rcases turn.of_mem_resumes h is with before | ⟨opening, opens, current, active, due⟩
    · obtain ⟨opening, among, rest⟩ := founded.armed alarm before generation chatId is
      exact ⟨opening, List.mem_append_left _ among, rest⟩
    · refine ⟨opening, ?_, current, active, by rw [due, same]⟩
      rw [opens]
      exact List.mem_append_right _ List.mem_cons_self
  · intro generation chatId h
    rcases turn.of_posted h with before | ⟨alarm, armed, is, due⟩
    · obtain ⟨opening, among, current, active, past⟩ := founded.posted generation chatId before
      exact ⟨opening, List.mem_append_left _ among, current, active, Nat.le_trans past later⟩
    · obtain ⟨opening, among, current, active, time⟩ :=
        founded.armed alarm armed generation chatId is
      rw [time] at due
      exact ⟨opening, List.mem_append_left _ among, current, active, Nat.le_trans due later⟩

theorem founded_run (settings : Settings) (credential : Option String) (moves : List Move) :
    Founded settings.resumeDelay ((start settings credential).openings moves)
      ((start settings credential).run moves).1 := by
  refine history_induction (P := fun history system =>
    Founded settings.resumeDelay ((start settings credential).openings history) system) ?_ ?_ moves
  · exact ⟨(fun alarm none => nomatch none), fun generation chatId none => nomatch none⟩
  · intro history move founded
    rw [openings, noted_concat]
    exact founded.turn (turn_step _ move) (by rw [settings_run])

/-! ### At most once -/

theorem countP_openings_le_one (settings : Settings) (credential : Option String)
    (moves : List Move) (generation : Nat) :
    ((start settings credential).openings moves).countP
      (fun opening => opening.generation == generation) ≤ 1 := by
  have distinct := (entered_run settings credential moves).distinct
  have one := List.nodup_iff_count.mp distinct generation
  rwa [List.count, List.countP_map] at one

/-- Of the timers of one generation the loop takes at most one. -/
theorem countP_resumes_le_one (settings : Settings) (credential : Option String)
    (moves : List Move) (generation : Nat) :
    ((start settings credential).noted takes? moves).countP
      (Event.wakes (Wake.isResume generation)) ≤ 1 := by
  have few : ((start settings credential).run moves).1.world.pending
        (Wake.isResume generation) +
      ((start settings credential).noted takes? moves).countP
        (Event.wakes (Wake.isResume generation)) ≤
      ((start settings credential).noted (fun system move =>
        (system.opening? move).filter fun opening =>
          opening.generation == generation) moves).length := by
    refine pending_run (fun system move input sessionId taken => ?_) settings credential moves
    rw [opening?_of_takes taken]
    exact Client.countP_resumes_handle
  have one := countP_openings_le_one settings credential moves generation
  rw [noted_filter, ← List.countP_eq_length_filter] at few
  exact Nat.le_trans (Nat.le_trans (Nat.le_add_left _ _) few) one

/-! ### What comes of a timer -/

/-- What comes of the timer of an opening, by the time the loop takes its event. -/
inductive Resumption (opening : Opening) (chatId : String) (system : System)
    (records : List Record) : Prop where
  /-- The link is over, and nothing happens. -/
  | late (gone : IsOver opening.generation system) (nothing : records = [])
  /-- The link is still open, and the frame is offered to its queue. -/
  | offered (current : opening.generation = system.client.connection.generation)
      (isOpen : system.client.connection.isOpen = true)
      (one : records = [
        if system.world.accepts opening.channel then
          .queued opening.channel (.ofAction (.loadChat chatId) system.client.connection.sessionId)
        else
          .refused opening.channel (.ofAction (.loadChat chatId) system.client.connection.sessionId)])

theorem Turn.resumption {chatId : String} (turn : Turn system move after)
    (entered : Entered known system.client.connection) (among : opening ∈ known)
    (taken : Takes (.event (.wake (.resume opening.generation chatId))) system move) :
    Resumption opening chatId system after.2 := by
  obtain ⟨sessionId, rfl⟩ := turn.of_takes taken (by simp)
  rw [records_carryOut]
  by_cases current : opening.generation = system.client.connection.generation ∧
      system.client.connection.isLive = true
  · obtain ⟨current, live⟩ := current
    obtain ⟨isOpen, held⟩ := entered.current opening among current live
    refine .offered current isOpen ?_
    simp only [Client.handle, Client.onEvent, Client.onWake, Connection.resume, Connection.send,
      Connection.offer, current, isOpen, held, beq_self_eq_true, if_true, Option.toList_some,
      List.map_cons, List.map_nil, World.performAll, List.append_nil, World.perform]
    have same : (system.without (.event (.wake (.resume system.client.connection.generation
        chatId)))).world.accepts opening.channel = system.world.accepts opening.channel := rfl
    rw [same]
    split <;> rfl
  · have gone : IsOver opening.generation system := by
      have begun := entered.begun opening among
      rw [not_and, Bool.not_eq_true] at current
      exact (Nat.lt_or_eq_of_le begun).imp_right fun same => ⟨same, current same⟩
    refine .late gone ?_
    have silent : system.client.connection.resume opening.generation chatId = [] := by
      rcases gone.late with other | free
      · rw [Connection.resume, if_neg (by rw [beq_iff_eq]; exact other)]
      · rw [Connection.resume, Connection.send, Connection.isOpen_eq_false_of_isLive free]
        exact ite_self _
    simp only [Client.handle, Client.onEvent, Client.onWake, silent, World.performAll]

/-- What comes of a timer to load a chat on the link of this generation. -/
def resumption? (generation : Nat) (system : System) (move : Move) : Option (List Record) :=
  ((system.takes? move).filter (Event.wakes (Wake.isResume generation))).map fun _ =>
    (system.step move).2

/-- What comes of all of them in the course of a run. -/
def resumed (system : System) (generation : Nat) (moves : List Move) : List Record :=
  (system.noted (resumption? generation) moves).flatten

theorem resumption?_eq_some_iff {generation : Nat} {records : List Record} :
    system.resumption? generation move = some records ↔
      (∃ chatId, Takes (.event (.wake (.resume generation chatId))) system move) ∧
        records = (system.step move).2 := by
  simp only [resumption?, Option.map_eq_some_iff, Option.filter_eq_some_iff, takes?_eq_some_iff]
  constructor
  · rintro ⟨event, ⟨taken, wakes⟩, same⟩
    obtain ⟨chatId, rfl⟩ := Event.wakes_isResume_iff.mp wakes
    exact ⟨⟨chatId, taken⟩, same.symm⟩
  · rintro ⟨⟨chatId, taken⟩, same⟩
    exact ⟨_, ⟨taken, Event.wakes_isResume_iff.mpr ⟨chatId, rfl⟩⟩, same.symm⟩

theorem resumed_eq_nil {moves : List Move} {generation : Nat}
    (silent : ∀ earlier move later chatId, moves = earlier ++ move :: later →
      Takes (.event (.wake (.resume generation chatId))) (system.run earlier).1 move →
        ((system.run earlier).1.step move).2 = []) :
    system.resumed generation moves = [] := by
  refine List.flatten_eq_nil_iff.mpr fun records noted => ?_
  obtain ⟨earlier, move, later, parts, came⟩ := sometime_iff_exists.mp (mem_noted.mp noted)
  obtain ⟨⟨chatId, taken⟩, rfl⟩ := resumption?_eq_some_iff.mp came
  exact silent earlier move later chatId parts taken

section runs

variable {settings : Settings} {credential : Option String} {moves : List Move}
  {generation : Nat} {chatId : String}

/-- A timer that the loop takes was armed for an opening, and what comes of it is up to
    whether the link is still open. -/
theorem of_takes_resume
    (taken : Takes (.event (.wake (.resume generation chatId)))
      ((start settings credential).run moves).1 move) :
    ∃ opening ∈ (start settings credential).openings moves,
      opening.generation = generation ∧ opening.activeChat = some chatId ∧
        opening.time + settings.resumeDelay ≤
          ((start settings credential).run moves).1.world.now ∧
        Resumption opening chatId ((start settings credential).run moves).1
          (((start settings credential).run moves).1.step move).2 := by
  obtain ⟨-, -, next⟩ := of_input?_event taken
  obtain ⟨opening, among, rfl, active, past⟩ :=
    (founded_run settings credential moves).posted generation chatId
      (by rw [next]; exact List.mem_cons_self)
  exact ⟨opening, among, rfl, active, past,
    (turn_step _ move).resumption (entered_run settings credential moves) among taken⟩

theorem length_resumed_le_one (settings : Settings) (credential : Option String)
    (moves : List Move) (generation : Nat) :
    ((start settings credential).resumed generation moves).length ≤ 1 := by
  refine Nat.le_trans ?_ (countP_resumes_le_one settings credential moves generation)
  refine @history_induction (fun history _ =>
    ((start settings credential).resumed generation history).length ≤
      ((start settings credential).noted takes? history).countP
        (Event.wakes (Wake.isResume generation))) (start settings credential) (Nat.le_refl _) ?_ moves
  intro history move bound
  rw [resumed, noted_concat, List.flatten_append, List.length_append, noted_concat,
    List.countP_append]
  refine Nat.add_le_add bound ?_
  cases came : ((start settings credential).run history).1.resumption? generation move with
  | none => exact Nat.zero_le _
  | some records =>
    obtain ⟨⟨chatId, taken⟩, rfl⟩ := resumption?_eq_some_iff.mp came
    obtain ⟨opening, -, -, -, -, resumption⟩ := of_takes_resume taken
    rw [takes?_eq_some_iff.mpr taken, Option.toList_some, Option.toList_some,
      List.flatten_singleton, List.countP_singleton,
      if_pos (Event.wakes_isResume_iff.mpr ⟨chatId, rfl⟩)]
    cases resumption with
    | late _ nothing => rw [nothing]; exact Nat.zero_le _
    | offered _ _ one => rw [one]; exact Nat.le_refl _

/-- One record of a timer is all that comes of the timers of its generation. -/
theorem resumed_eq_singleton {earlier later : List Move} {record : Record}
    (taken : Takes (.event (.wake (.resume generation chatId)))
      ((start settings credential).run earlier).1 move)
    (one : (((start settings credential).run earlier).1.step move).2 = [record]) :
    (start settings credential).resumed generation (earlier ++ move :: later) = [record] := by
  have among : record ∈ (start settings credential).resumed generation
      (earlier ++ move :: later) := by
    refine List.mem_flatten.mpr ⟨[record], mem_noted.mpr ?_, List.mem_cons_self⟩
    refine sometime_iff_exists.mpr ⟨earlier, move, later, rfl, ?_⟩
    exact resumption?_eq_some_iff.mpr ⟨⟨chatId, taken⟩, one.symm⟩
  have few := length_resumed_le_one settings credential (earlier ++ move :: later) generation
  obtain ⟨only, single⟩ :=
    List.length_eq_one_iff.mp (Nat.le_antisymm few (List.length_pos_of_mem among))
  rw [single] at among ⊢
  rw [List.mem_singleton.mp among]

/-! ### When it comes -/

/-- A timer that is due is due just now: the clock does not pass it. -/
theorem on_time_of_due {alarm : Alarm}
    (armed : alarm ∈ ((start settings credential).run moves).1.world.alarms.armed)
    (wake : alarm.wake = .resume generation chatId)
    (due : alarm.due ≤ ((start settings credential).run moves).1.world.now) :
    ∃ opening ∈ (start settings credential).openings moves,
      opening.generation = generation ∧ opening.activeChat = some chatId ∧
        ((start settings credential).run moves).1.world.now =
          opening.time + settings.resumeDelay := by
  have inTime := isPunctual_run settings credential moves alarm armed
  obtain ⟨opening, among, current, active, time⟩ :=
    (founded_run settings credential moves).armed alarm armed generation chatId wake
  exact ⟨opening, among, current, active, by omega⟩

/-- The timer of an opening rings at its hour, neither before nor after. -/
theorem rings_on_time
    (rings : ((start settings credential).run moves).1.posts? move =
      some (.wake (.resume generation chatId))) :
    ∃ opening ∈ (start settings credential).openings moves,
      opening.generation = generation ∧ opening.activeChat = some chatId ∧
        ((start settings credential).run moves).1.world.now =
          opening.time + settings.resumeDelay := by
  obtain ⟨alarm, armed, wake, due⟩ := armed_of_posts? rings
  exact on_time_of_due armed wake due

/-- If no event waits while time passes, the event of a timer is there at its hour only. -/
theorem posted_on_time
    (prompt : ¬Sometime Lags (start settings credential) moves)
    (posted : .wake (.resume generation chatId) ∈
      ((start settings credential).run moves).1.world.events) :
    ∃ opening ∈ (start settings credential).openings moves, opening.generation = generation ∧
      ((start settings credential).run moves).1.world.now =
        opening.time + settings.resumeDelay := by
  refine history_induction (P := fun history system =>
    ¬Sometime Lags (start settings credential) history →
      .wake (.resume generation chatId) ∈ system.world.events →
        ∃ opening ∈ (start settings credential).openings history,
          opening.generation = generation ∧
            system.world.now = opening.time + settings.resumeDelay) ?_ ?_ moves prompt posted
  · intro _ none
    cases none
  · intro history move onTime prompt posted
    rw [sometime_concat, not_or] at prompt
    rw [openings, noted_concat]
    have turn := turn_step ((start settings credential).run history).1 move
    have still : (((start settings credential).run history).1.step move).1.world.now =
        ((start settings credential).run history).1.world.now := by
      refine Nat.le_antisymm (Nat.not_lt.mp fun passes => ?_) turn.now_le
      rw [turn.events_of_passes passes] at posted
      exact prompt.2 ⟨List.ne_nil_of_mem posted, passes⟩
    rw [still]
    rcases turn.of_posted posted with before | ⟨alarm, armed, wake, due⟩
    · obtain ⟨opening, among, rest⟩ := onTime prompt.1 before
      exact ⟨opening, List.mem_append_left _ among, rest⟩
    · obtain ⟨opening, among, current, -, now⟩ := on_time_of_due armed wake due
      exact ⟨opening, List.mem_append_left _ among, current, now⟩

end runs

/-! ### That it comes -/

/-- The timer of the link that is open is armed, posted or taken. -/
def Owes (delay : Nat) (known : List Opening) (taken : List Event) (system : System) : Prop :=
  ∀ opening ∈ known, ∀ chatId, opening.activeChat = some chatId →
    opening.generation = system.client.connection.generation →
      system.client.connection.isLive = true →
        ⟨opening.time + delay, .resume opening.generation chatId, true⟩ ∈
            system.world.alarms.armed ∨
          .wake (.resume opening.generation chatId) ∈ system.world.events ∨
            .wake (.resume opening.generation chatId) ∈ taken

theorem Owes.turn {taken : List Event} (owes : Owes delay known taken system)
    (turn : Turn system move after) (entered : Entered known system.client.connection)
    (attends : Attends system) (same : system.client.connection.settings.resumeDelay = delay) :
    Owes delay (known ++ (system.opening? move).toList) (taken ++ (system.takes? move).toList)
      after.1 := by
  intro opening among chatId active current live
  rcases List.mem_append.mp among with among | new
  · rcases (turn.of_isLive live).2 with ⟨-, grown⟩ | ⟨before, kept⟩
    · -- the link was just started, and cannot have opened
      have begun := entered.begun opening among
      omega
    · have goesOn := (turn.attends attends).isRunning_of_isLive live
      have listening := attends.listens (turn.isRunning_of goesOn)
      rcases owes opening among chatId active (current.trans kept) before with
        armed | posted | earlier
      · exact (turn.armed_or_posted listening goesOn (turn.not_disconnects live) armed).imp_right
          .inl
      · refine (turn.posted_or_takes goesOn posted).elim (fun posted => .inr (.inl posted)) ?_
        intro now
        rw [takes?_eq_some_iff.mpr now]
        exact .inr (.inr (List.mem_append_right _ List.mem_cons_self))
      · exact .inr (.inr (List.mem_append_left _ earlier))
  · obtain ⟨-, -, armed⟩ := turn.of_opening (Option.mem_toList.mp new)
    rw [armed, active, same]
    exact .inl (List.mem_append_right _ List.mem_cons_self)

theorem owes_run (settings : Settings) (credential : Option String) (moves : List Move) :
    Owes settings.resumeDelay ((start settings credential).openings moves)
      ((start settings credential).noted takes? moves)
      ((start settings credential).run moves).1 := by
  refine history_induction (P := fun history system =>
    Owes settings.resumeDelay ((start settings credential).openings history)
      ((start settings credential).noted takes? history) system) ?_ ?_ moves
  · intro opening none
    cases none
  · intro history move owes
    rw [openings, noted_concat, noted_concat]
    exact owes.turn (turn_step _ move) (entered_run settings credential history)
      (attends_run settings credential history) (by rw [settings_run])

/-! ### All of it -/

theorem openings_mono {earlier : List Move} (among : opening ∈ system.openings earlier)
    (later : List Move) : opening ∈ system.openings (earlier ++ later) := by
  rw [openings, noted_append]
  exact List.mem_append_left _ among

section runs

variable {settings : Settings} {credential : Option String} {moves : List Move} {chatId : String}

theorem eq_of_generation {other : Opening}
    (among : opening ∈ (start settings credential).openings moves)
    (too : other ∈ (start settings credential).openings moves)
    (same : opening.generation = other.generation) : opening = other :=
  List.inj_on_of_nodup_map (entered_run settings credential moves).distinct among too same

/-- A link that is over before the delay is gets no frame. -/
theorem resumed_of_isOver {earlier later : List Move} {generation : Nat}
    (gone : IsOver generation ((start settings credential).run earlier).1)
    (early : ∀ opening ∈ (start settings credential).openings earlier,
      opening.generation = generation →
        ((start settings credential).run earlier).1.world.now <
          opening.time + settings.resumeDelay) :
    (start settings credential).resumed generation (earlier ++ later) = [] := by
  refine resumed_eq_nil fun before move after chatId parts taken => ?_
  obtain ⟨opening, among, rfl, -, past, resumption⟩ := of_takes_resume taken
  rcases List.append_eq_append_iff.mp parts with ⟨rest, rfl, -⟩ | ⟨rest, rfl, -⟩
  · -- the timer is taken after the end of the link
    cases resumption with
    | late _ nothing => exact nothing
    | offered current isOpen one =>
      have free := (gone.run rest).not_isLive current
      rw [Connection.isOpen_eq_false_of_isLive free] at isOpen
      cases isOpen
  · -- it cannot be taken before, as the delay is not over
    have soon := early opening (openings_mono among rest) rfl
    have later := now_le_run ((start settings credential).run before).1 rest
    simp only [run_append] at soon
    omega

/-- A link that is still open when the delay is over was offered the frame. -/
theorem resumed_of_isLive
    (among : opening ∈ (start settings credential).openings moves)
    (active : opening.activeChat = some chatId)
    (current : opening.generation =
      ((start settings credential).run moves).1.client.connection.generation)
    (live : ((start settings credential).run moves).1.client.connection.isLive = true)
    (past : opening.time + settings.resumeDelay <
      ((start settings credential).run moves).1.world.now)
    (drained : ((start settings credential).run moves).1.world.events = [] ∨
      ¬Sometime Lags (start settings credential) moves) :
    ∃ sessionId,
      (start settings credential).resumed opening.generation moves =
          [.queued opening.channel (.ofAction (.loadChat chatId) sessionId)] ∨
        (start settings credential).resumed opening.generation moves =
          [.refused opening.channel (.ofAction (.loadChat chatId) sessionId)] := by
  have taken : .wake (.resume opening.generation chatId) ∈
      (start settings credential).noted takes? moves := by
    rcases owes_run settings credential moves opening among chatId active current live with
      armed | posted | taken
    · exact absurd (isPunctual_run settings credential moves _ armed) (Nat.not_le_of_lt past)
    · rcases drained with none | prompt
      · rw [none] at posted
        cases posted
      · obtain ⟨other, too, same, now⟩ := posted_on_time prompt posted
        rw [eq_of_generation too among same] at now
        omega
    · exact taken
  obtain ⟨earlier, move, later, rfl, takes⟩ := sometime_iff_exists.mp (mem_noted.mp taken)
  have takes := takes?_eq_some_iff.mp takes
  obtain ⟨other, too, same, -, -, resumption⟩ := of_takes_resume takes
  obtain rfl := eq_of_generation (openings_mono too (move :: later)) among same
  cases resumption with
  | late gone =>
    rw [(gone.run (move :: later)).not_isLive current] at live
    cases live
  | offered now isOpen one =>
    rw [resumed_eq_singleton takes one]
    refine ⟨((start settings credential).run earlier).1.client.connection.sessionId, ?_⟩
    split
    · exact .inl rfl
    · exact .inr rfl

end runs

/-- What a run does about the chats that were active when its links opened. -/
structure ResumesChats (system : System) (delay : Nat) (moves : List Move) : Prop where
  /-- At most one frame comes of the timers of a generation. -/
  once : ∀ generation, (system.resumed generation moves).length ≤ 1
  /-- The queue of an opening belongs to the link that opened. -/
  owned : ∀ opening ∈ system.openings moves,
    (system.run moves).1.world.owners[opening.channel]? = some opening.generation
  /-- A timer rings for an opening with an active chat, one delay after it. -/
  rings : ∀ generation chatId move,
    (system.run moves).1.posts? move = some (.wake (.resume generation chatId)) →
      ∃ opening ∈ system.openings moves,
        opening.generation = generation ∧ opening.activeChat = some chatId ∧
          (system.run moves).1.world.now = opening.time + delay
  /-- When the loop takes it, which is at that very time unless events had to wait, the frame
      is offered to the queue of the opening if the link is still open, and nothing happens
      otherwise. -/
  comes : ∀ generation chatId move,
    Takes (.event (.wake (.resume generation chatId))) (system.run moves).1 move →
      ∃ opening ∈ system.openings moves,
        opening.generation = generation ∧ opening.activeChat = some chatId ∧
          opening.time + delay ≤ (system.run moves).1.world.now ∧
          (¬Sometime Lags system moves →
            (system.run moves).1.world.now = opening.time + delay) ∧
          Resumption opening chatId (system.run moves).1 ((system.run moves).1.step move).2
  /-- A link that opened with no chat active gets no frame. -/
  silent : ∀ generation, (∀ opening ∈ system.openings moves,
      opening.generation = generation → opening.activeChat = none) →
    system.resumed generation moves = []
  /-- Nor does one that was closed, given up or superseded before the delay was over. -/
  ended : ∀ generation earlier later, moves = earlier ++ later →
    IsOver generation (system.run earlier).1 →
      (∀ opening ∈ system.openings earlier, opening.generation = generation →
        (system.run earlier).1.world.now < opening.time + delay) →
      system.resumed generation moves = []
  /-- One that is still open when it is over, and opened with a chat active, was offered
      the frame, once the events up to then are taken. -/
  offered : ∀ opening ∈ system.openings moves, ∀ chatId, opening.activeChat = some chatId →
    opening.generation = (system.run moves).1.client.connection.generation →
      (system.run moves).1.client.connection.isLive = true →
        opening.time + delay < (system.run moves).1.world.now →
          ((system.run moves).1.world.events = [] ∨ ¬Sometime Lags system moves) →
            ∃ sessionId,
              system.resumed opening.generation moves =
                  [.queued opening.channel (.ofAction (.loadChat chatId) sessionId)] ∨
                system.resumed opening.generation moves =
                  [.refused opening.channel (.ofAction (.loadChat chatId) sessionId)]

/-- **A chat is loaded again on a new link**, once per link, one delay after it opened and
    only if it is still open then: whatever the order of closes, reconnects, disconnects,
    changes of the active chat and timers. -/
theorem chats_resumed (settings : Settings) (credential : Option String) (moves : List Move) :
    ResumesChats (start settings credential) settings.resumeDelay moves where
  once generation := length_resumed_le_one settings credential moves generation
  owned _ among := owner_of_taken (mem_taken_of_mem_openings among)
  rings _ _ _ rings := rings_on_time rings
  comes generation chatId move taken := by
    obtain ⟨opening, among, same, active, past, resumption⟩ := of_takes_resume taken
    refine ⟨opening, among, same, active, past, fun prompt => ?_, resumption⟩
    obtain ⟨-, -, next⟩ := of_input?_event taken
    obtain ⟨other, too, again, now⟩ :=
      posted_on_time prompt (by rw [next]; exact List.mem_cons_self)
    rwa [eq_of_generation too among (again.trans same.symm)] at now
  silent generation inactive := by
    refine resumed_eq_nil fun earlier move later chatId parts taken => ?_
    obtain ⟨opening, among, same, active, -⟩ := of_takes_resume taken
    rw [parts] at inactive
    rw [inactive opening (openings_mono among (move :: later)) same] at active
    cases active
  ended generation earlier later parts gone early := by
    rw [parts]
    exact resumed_of_isOver gone early
  offered _ among _ active current live past drained :=
    resumed_of_isLive among active current live past drained

/-- A chat is started, the link closes, and the next one opens.  One delay later its queue is
    offered the frame that loads the chat. -/
theorem chat_loaded_again_after_reconnect :
    let system := start ⟨"ws://localhost/ui", ["render"], 3, 1, 10, 5⟩ (some "token")
    let created : Json :=
      .obj [("type", .str "chat_created"), ("chat_id", .str "lisbon")]
    let moves : List Move :=
      [.submit .connect, .takeCommand, .world (.linkOpens 1 8), .takeEvent "first",
        .world (.linkReports 1 (.frame created.compact)), .takeEvent "",
        .world (.linkReports 1 .closed), .takeEvent "", .world (.wait 3), .world (.ring 0),
        .takeEvent "", .world (.linkOpens 2 8), .takeEvent "second", .world (.wait 1),
        .world (.ring 0), .takeEvent "", .world (.wait 1)]
    ∃ sessionId,
      system.resumed 2 moves = [.queued 1 (.ofAction (.loadChat "lisbon") sessionId)] ∨
        system.resumed 2 moves = [.refused 1 (.ofAction (.loadChat "lisbon") sessionId)] := by
  intro system created moves
  have opened : ⟨2, 1, some "lisbon", 3⟩ ∈ system.openings moves := by decide +kernel
  exact (chats_resumed ⟨"ws://localhost/ui", ["render"], 3, 1, 10, 5⟩ (some "token") moves).offered
    _ opened "lisbon" rfl (by decide +kernel) (by decide +kernel) (by decide +kernel)
    (.inl (by decide +kernel))

end System
end Liveboard.Session
