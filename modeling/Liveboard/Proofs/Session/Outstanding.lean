/-
  Liveboard/Proofs/Session/Outstanding.lean
  =========================================
  **Timers that are pending, and the reconnects among them.**

  A timer is pending from the time it is armed until the loop takes its event, or a
  disconnect ends its scope.  A move leaves no more of a kind pending than there were, less
  the one that it takes, plus those that it arms (`Turn.pending_le`).

  A reconnect that is pending is called outstanding.  The end of a link adds exactly one
  (`Turn.outstanding_of_close`), and nothing else adds any (`Turn.outstanding_le`).
-/
import Liveboard.Proofs.Session.Course

namespace Liveboard.Session

def Wake.isReconnect : Wake → Bool
  | .reconnect => true
  | _ => false

def Alarm.isReconnect (alarm : Alarm) : Bool := alarm.wake.isReconnect

def Event.isReconnect : Event → Bool
  | .wake purpose => purpose.isReconnect
  | .link _ _ => false

def Input.isReconnect : Input → Bool
  | .event posted => posted.isReconnect
  | .command _ => false

/-- The event is of a timer that was armed for this kind of purpose. -/
def Event.wakes (kind : Wake → Bool) : Event → Bool
  | .wake purpose => kind purpose
  | .link _ _ => false

def Input.wakes (kind : Wake → Bool) : Input → Bool
  | .event posted => posted.wakes kind
  | .command _ => false

theorem Event.isReconnect_eq_wakes : Event.isReconnect = Event.wakes Wake.isReconnect := by
  funext event
  cases event <;> rfl

theorem Input.isReconnect_eq_wakes : Input.isReconnect = Input.wakes Wake.isReconnect := by
  funext input
  rcases input with command | _ | wake <;> rfl

theorem Wake.isReconnect_iff {wake : Wake} : wake.isReconnect = true ↔ wake = .reconnect := by
  cases wake <;> simp [isReconnect]

theorem Event.isReconnect_iff {event : Event} :
    event.isReconnect = true ↔ event = .wake .reconnect := by
  cases event with
  | link generation news => simp [isReconnect]
  | wake wake => simp [isReconnect, Wake.isReconnect_iff]

theorem Order.isReconnect_of_isPlain {order : Order} {now : Nat} {alarm : Alarm}
    (plain : order.isPlain = true) (armed : order.alarm? now = some alarm) :
    alarm.isReconnect = false := by
  have outlives := (Order.wake_of_isPlain plain armed).2
  refine Bool.eq_false_iff.mpr fun reconnects => ?_
  rw [Wake.isReconnect_iff.mp reconnects] at outlives
  cases outlives

/-! ### Orders and moves -/

namespace World

/-- How many timers of a kind are armed, or posted and not yet taken. -/
def pending (world : World) (kind : Wake → Bool) : Nat :=
  world.alarms.armed.countP (fun alarm => kind alarm.wake) +
    world.events.countP (Event.wakes kind)

/-- How many reconnects are armed, or posted and not yet taken. -/
def outstanding (world : World) : Nat :=
  world.alarms.armed.countP Alarm.isReconnect + world.events.countP Event.isReconnect

theorem outstanding_eq_pending (world : World) :
    world.outstanding = world.pending Wake.isReconnect := by
  rw [outstanding, Event.isReconnect_eq_wakes]
  rfl

theorem armed_perform {world : World} {order : Order} (goesOn : order ≠ .endScope) :
    (world.perform order).1.alarms.armed =
      world.alarms.armed ++ (order.alarm? world.now).toList := by
  cases order with
  | endScope => exact absurd rfl goesOn
  | arm after wake => rfl
  | armDetached after wake => rfl
  | offer channel envelope => simp only [perform]; split <;> simp [Order.alarm?]
  | _ => simp [perform, Order.alarm?]

/-- While the scope lasts, orders add the alarms they ask for and take none away. -/
theorem armed_performAll {world : World} {orders : List Order} (goesOn : .endScope ∉ orders) :
    (world.performAll orders).1.alarms.armed =
      world.alarms.armed ++ orders.filterMap (Order.alarm? world.now) := by
  induction orders generalizing world with
  | nil => simp [performAll]
  | cons order orders ih =>
    rw [List.mem_cons, not_or] at goesOn
    rw [fst_performAll_cons, ih goesOn.2, armed_perform (Ne.symm goesOn.1), now_perform]
    cases asked : order.alarm? world.now <;> simp [asked]

theorem countP_armed_performAll_le (p : Alarm → Bool) (world : World) (orders : List Order) :
    (world.performAll orders).1.alarms.armed.countP p ≤
      world.alarms.armed.countP p + (orders.filterMap (Order.alarm? world.now)).countP p := by
  induction orders generalizing world with
  | nil => exact Nat.le_add_right _ _
  | cons order orders ih =>
    have first : (world.perform order).1.alarms.armed.countP p ≤
        world.alarms.armed.countP p + (order.alarm? world.now).toList.countP p := by
      by_cases ends : order = .endScope
      · subst ends
        exact Nat.le_add_right_of_le (List.filter_sublist.countP_le)
      · exact Nat.le_of_eq (by rw [armed_perform ends, List.countP_append])
    have later := ih (world.perform order).1
    rw [now_perform] at later
    have parts : (order :: orders).filterMap (Order.alarm? world.now) =
        (order.alarm? world.now).toList ++ orders.filterMap (Order.alarm? world.now) := by
      cases asked : order.alarm? world.now <;> simp [asked]
    rw [fst_performAll_cons, parts, List.countP_append]
    omega

theorem countP_armed_deafen_le (p : Alarm → Bool) (world : World) :
    world.deafen.1.alarms.armed.countP p ≤ world.alarms.armed.countP p := by
  obtain ⟨orders, released, same⟩ := exists_deafen world
  have bound := countP_armed_performAll_le p
    { world with events := [], isListening := false } orders
  have none : ∀ now, orders.filterMap (Order.alarm? now) = [] := by
    intro now
    refine List.filterMap_eq_nil_iff.mpr fun order ordered => ?_
    obtain ⟨channel, rfl⟩ := released order ordered
    rfl
  rw [none] at bound
  rw [same]
  exact bound

theorem countP_eraseIdx {α : Type} {p : α → Bool} {items : List α} {index : Nat} {item : α}
    (found : items[index]? = some item) :
    (items.eraseIdx index).countP p + (if p item then 1 else 0) = items.countP p := by
  obtain ⟨inside, rfl⟩ := List.getElem?_eq_some_iff.mp found
  have parts : items = items.take index ++ items[index] :: items.drop (index + 1) := by
    rw [← List.drop_eq_getElem_cons, List.take_append_drop]
  conv => rhs; rw [parts]
  rw [List.eraseIdx_eq_take_drop_succ, List.countP_append, List.countP_append, List.countP_cons,
    Nat.add_assoc]

theorem countP_events_post_le (kind : Wake → Bool) (world : World) (event : Event) :
    (world.post event).events.countP (Event.wakes kind) ≤
      world.events.countP (Event.wakes kind) + if event.wakes kind then 1 else 0 := by
  unfold post
  split
  · exact Nat.le_of_eq (by rw [List.countP_append, List.countP_singleton])
  · exact Nat.le_add_right _ _

/-- Nothing that goes on around the loop arms a timer. -/
theorem Stir.pending_le {world after : World} (stir : Stir world after) (kind : Wake → Bool) :
    after.pending kind ≤ world.pending kind := by
  cases stir with
  | quiet same =>
    rw [pending, same.armed, same.events]
    exact Nat.le_refl _
  | @news next same generation news =>
    have posted := countP_events_post_le kind next (.link generation news)
    rw [same.events] at posted
    rw [pending, alarms_post, same.armed]
    exact Nat.add_le_add_left posted _
  | @rings index wake alarms rung =>
    obtain ⟨alarm, found, -, rfl, rfl⟩ := ring?_eq_some rung
    have armed := countP_eraseIdx (p := fun alarm => kind alarm.wake) found
    have posted := countP_events_post_le kind
      { world with alarms := { world.alarms with armed := world.alarms.armed.eraseIdx index } }
      (.wake alarm.wake)
    rw [pending, alarms_post, pending, ← armed, Nat.add_right_comm, Nat.add_assoc]
    exact Nat.add_le_add_left posted _

end World

/-! ### One input -/

namespace Connection

variable {connection : Connection}

theorem handle_of_final {event : LinkEvent} (live : connection.isLive = true)
    (final : event.isFinal = true) (sessionId : String) (activeChat : Option String) :
    connection.handle connection.generation (.reported event) sessionId activeChat =
      (connection.onClose.1, connection.onClose.2, none) := by
  unfold handle
  cases event with
  | frame text => cases final
  | _ => simp [live]

/-- The end of a link arms a reconnect and nothing else. -/
theorem alarms_onClose (connection : Connection) (now : Nat) :
    connection.onClose.2.filterMap (Order.alarm? now) =
      [⟨now + connection.settings.reconnectDelay, .reconnect, true⟩] := by
  have dropped : connection.dropLink.2.filterMap (Order.alarm? now) = [] := by
    refine List.filterMap_eq_nil_iff.mpr fun order ordered => ?_
    have outward := isOutward_of_mem_dropLink ordered
    cases order <;> first | rfl | cases outward
  have orders : connection.onClose.2 = connection.dropLink.2 ++
      [.announce false, .arm connection.settings.reconnectDelay .reconnect] := rfl
  rw [orders, List.filterMap_append, dropped]
  rfl

end Connection

namespace Client

variable {client : Client} {credential : Option String} {input : Input}

theorem alarms_of_closes (closes : client.closes input = true) (sessionId : String) (now : Nat) :
    (client.handle credential sessionId input).2.filterMap (Order.alarm? now) =
      [⟨now + client.connection.settings.reconnectDelay, .reconnect, true⟩] := by
  obtain ⟨live, event, final, rfl⟩ := closes_iff.mp closes
  rw [handle, onEvent, onNews, Connection.handle_of_final live final]
  exact Connection.alarms_onClose client.connection now

/-- No other input arms a reconnect. -/
theorem isReconnect_of_mem_handle {order : Order} {sessionId : String} {now : Nat} {alarm : Alarm}
    (whole : client.closes input = false)
    (ordered : order ∈ (client.handle credential sessionId input).2)
    (armed : order.alarm? now = some alarm) : alarm.isReconnect = false := by
  cases asked_handle ordered with
  | attempt | endScope => cases armed
  | reconnect live final =>
    rw [closes_iff.mpr ⟨live, _, final, rfl⟩] at whole
    cases whole
  | resume | deadline => cases armed; rfl
  | plain plain => exact Order.isReconnect_of_isPlain plain armed

theorem countP_alarms_handle (sessionId : String) (now : Nat) :
    ((client.handle credential sessionId input).2.filterMap (Order.alarm? now)).countP
        Alarm.isReconnect =
      if client.closes input then 1 else 0 := by
  cases closes : client.closes input with
  | true =>
    rw [alarms_of_closes closes]
    rfl
  | false =>
    refine List.countP_eq_zero.mpr fun alarm asked => ?_
    obtain ⟨order, ordered, armed⟩ := List.mem_filterMap.mp asked
    rw [isReconnect_of_mem_handle closes ordered armed]
    exact Bool.false_ne_true

end Client

/-! ### One move -/

namespace System

variable {system : System} {move : Move} {after : System × List Record}

theorem length_close?_of_takes {input : Input} (taken : Takes input system move) :
    (system.close? move).toList.length = if system.client.closes input then 1 else 0 := by
  rw [close?_of_takes taken]
  split <;> rfl

theorem countP_events_without (kind : Wake → Bool) {input : Input}
    (taken : Takes input system move) :
    (system.without input).world.events.countP (Event.wakes kind) +
        (if input.wakes kind then 1 else 0) =
      system.world.events.countP (Event.wakes kind) := by
  cases input with
  | command command => rfl
  | event event =>
    obtain ⟨-, -, next⟩ := of_input?_event taken
    conv => rhs; rw [next]
    rw [List.countP_cons]
    rfl

/-- At its end the loop arms nothing. -/
theorem alarms_lastOrders (system : System) (now : Nat) :
    system.lastOrders.filterMap (Order.alarm? now) = [] := by
  refine List.filterMap_eq_nil_iff.mpr fun order ordered => ?_
  rcases hangUp_or_settle_of_mem_lastOrders ordered with ordered | ⟨ticket, rfl⟩
  · rcases List.mem_append.mp ordered with ordered | ordered
    · rcases Connection.of_mem_disconnect ordered with rfl | outward
      · rfl
      · cases order <;> first | rfl | cases outward
    · obtain ⟨settlement, -, rfl⟩ := List.mem_map.mp ordered
      rfl
  · rfl

theorem pending_stop_le (system : System) (kind : Wake → Bool) :
    system.stop.1.world.pending kind ≤ system.world.pending kind := by
  have armed := World.countP_armed_performAll_le (fun alarm => kind alarm.wake) system.world
    system.lastOrders
  rw [alarms_lastOrders, List.countP_nil, Nat.add_zero] at armed
  have lost := World.countP_armed_deafen_le (fun alarm => kind alarm.wake)
    (system.world.performAll system.lastOrders).1
  rw [world_stop, World.pending, World.events_deafen, List.countP_nil, Nat.add_zero]
  exact Nat.le_add_right_of_le (Nat.le_trans lost armed)

/-- A move leaves no more timers of a kind pending than there were, less the one whose event
    it takes, plus those that it arms. -/
theorem Turn.pending_le (turn : Turn system move after) (kind : Wake → Bool) {most : Nat}
    (asked : ∀ input sessionId, Takes input system move →
      ((system.client.handle system.credential sessionId input).2.filterMap
        (Order.alarm? system.world.now)).countP (fun alarm => kind alarm.wake) ≤ most) :
    after.1.world.pending kind + (system.input? move).toList.countP (Input.wakes kind) ≤
      system.world.pending kind + most := by
  cases turn with
  | @handled move input sessionId taken goesOn =>
    have posted := countP_events_without kind taken
    have armed := World.countP_armed_performAll_le (fun alarm => kind alarm.wake)
      (system.without input).world (system.client.handle system.credential sessionId input).2
    have most := asked input sessionId taken
    rw [alarms_without, now_without] at armed
    rw [taken, Option.toList_some, List.countP_singleton, world_carryOut, World.pending,
      World.events_performAll, World.pending]
    omega
  | @ending left running next =>
    have silent : (system.input? .takeCommand).toList.countP (Input.wakes kind) = 0 := by
      rcases next with next | ⟨next, -⟩ <;> rw [input?, if_pos running, next] <;> rfl
    rw [silent, Nat.add_zero]
    exact Nat.le_add_right_of_le (pending_stop_le { system with commands := left } kind)
  | surroundings move =>
    exact Nat.le_add_right_of_le ((World.stir_step system.world move).pending_le kind)
  | submission nothing =>
    rw [nothing]
    exact Nat.le_add_right _ _
  | idle nothing =>
    rw [nothing]
    exact Nat.le_add_right _ _

/-- Of reconnects, a move arms the one for the link whose end it takes notice of. -/
theorem Turn.outstanding_le (turn : Turn system move after) :
    after.1.world.outstanding + (system.input? move).toList.countP Input.isReconnect ≤
      system.world.outstanding + (system.close? move).toList.length := by
  rw [World.outstanding_eq_pending, World.outstanding_eq_pending, Input.isReconnect_eq_wakes]
  refine turn.pending_le Wake.isReconnect fun input sessionId taken => ?_
  rw [length_close?_of_takes taken]
  exact Nat.le_of_eq (Client.countP_alarms_handle sessionId system.world.now)

theorem Turn.armed_of_close {close : Close} (turn : Turn system move after)
    (closes : system.close? move = some close) :
    after.1.world.alarms.armed = system.world.alarms.armed ++
      [⟨close.time + system.client.connection.settings.reconnectDelay, .reconnect, true⟩] := by
  obtain ⟨input, taken, ended, rfl⟩ := of_close? closes
  obtain ⟨-, event, -, isNews⟩ := Client.closes_iff.mp ended
  have goesOn : input ≠ .command .shutdown := by rw [isNews]; simp
  have keeps : input ≠ .command .disconnect := by rw [isNews]; simp
  obtain ⟨sessionId, rfl⟩ := turn.of_takes taken goesOn
  rw [world_carryOut, World.armed_performAll (not_mem_handle_of_not_disconnect keeps),
    alarms_without, Client.alarms_of_closes ended, now_without]

theorem Turn.outstanding_of_close {close : Close} (turn : Turn system move after)
    (closes : system.close? move = some close) :
    after.1.world.outstanding = system.world.outstanding + 1 := by
  obtain ⟨input, taken, ended, -⟩ := of_close? closes
  obtain ⟨-, event, -, rfl⟩ := Client.closes_iff.mp ended
  have armed := turn.armed_of_close closes
  have posted := countP_events_without Wake.isReconnect taken
  rw [← Event.isReconnect_eq_wakes] at posted
  obtain ⟨sessionId, rfl⟩ := turn.of_takes taken (by simp)
  rw [World.outstanding, armed, world_carryOut, World.events_performAll, List.countP_append,
    World.outstanding, ← posted, Nat.add_right_comm]
  rfl

/-- An alarm that is armed was armed before, or the input that the move takes asks for it. -/
theorem Turn.armed_or_asked {alarm : Alarm} (turn : Turn system move after)
    (h : alarm ∈ after.1.world.alarms.armed) :
    alarm ∈ system.world.alarms.armed ∨ ∃ input sessionId order, Takes input system move ∧
      order ∈ (system.client.handle system.credential sessionId input).2 ∧
        order.alarm? system.world.now = some alarm := by
  cases turn with
  | @handled move input sessionId taken goesOn =>
    rw [world_carryOut] at h
    rcases World.of_mem_armed_performAll h with before | ⟨order, ordered, armed⟩
    · rw [alarms_without] at before
      exact .inl before
    · rw [now_without] at armed
      exact .inr ⟨input, sessionId, order, taken, ordered, armed⟩
  | ending running next =>
    rw [world_stop] at h
    rcases World.of_mem_armed_performAll (World.of_mem_armed_deafen h) with
      before | ⟨order, ordered, armed⟩
    · exact .inl before
    · have asked := List.mem_filterMap.mpr ⟨order, ordered, armed⟩
      rw [alarms_lastOrders] at asked
      cases asked
  | surroundings move => exact .inl ((World.stir_step _ move).of_mem_armed h)
  | submission => exact .inl h
  | idle => exact .inl h

/-- A reconnect that is armed was armed before, or for the end of a link. -/
theorem Turn.of_mem_reconnects {alarm : Alarm} (turn : Turn system move after)
    (h : alarm ∈ after.1.world.alarms.armed) (back : alarm.wake = .reconnect) :
    alarm ∈ system.world.alarms.armed ∨ ∃ close, system.close? move = some close ∧
      alarm = ⟨close.time + system.client.connection.settings.reconnectDelay, .reconnect, true⟩ := by
  cases closes : system.close? move with
  | some close =>
    rw [turn.armed_of_close closes] at h
    exact (List.mem_append.mp h).imp_right fun new => ⟨close, rfl, List.mem_singleton.mp new⟩
  | none =>
    rcases turn.armed_or_asked h with before | ⟨input, sessionId, order, taken, ordered, armed⟩
    · exact .inl before
    · have whole : system.client.closes input = false := by
        rw [close?_of_takes taken] at closes
        refine Bool.eq_false_iff.mpr fun ended => ?_
        rw [if_pos ended] at closes
        cases closes
      have other := Client.isReconnect_of_mem_handle whole ordered armed
      rw [Alarm.isReconnect, back] at other
      cases other

/-- The event of an alarm was posted before, or the alarm was due. -/
theorem Turn.of_posted {wake : Wake} (turn : Turn system move after)
    (h : .wake wake ∈ after.1.world.events) :
    .wake wake ∈ system.world.events ∨
      ∃ alarm ∈ system.world.alarms.armed, alarm.wake = wake ∧ alarm.due ≤ system.world.now := by
  cases turn with
  | @handled move input sessionId taken goesOn =>
    rw [world_carryOut, World.events_performAll] at h
    cases input with
    | command command => exact .inl h
    | event taken => exact .inl (List.mem_of_mem_tail h)
  | ending running next =>
    rw [world_stop, World.events_deafen] at h
    cases h
  | surroundings move => exact (World.stir_step _ move).of_posted h
  | submission => exact .inl h
  | idle => exact .inl h

end System
end Liveboard.Session
