/-
  Liveboard/Proofs/Session/Scope.lean
  ===================================
  **Where the alarms of a session come from, and how they end.**

  Whatever is armed was asked for by the handler of one input (`Turn.of_mem_armed`), and
  every alarm is armed in the scope its purpose belongs to (`alarmsScoped_run`): those of
  the connection die with a manual disconnect, the expiry of an error text does not.
  While the loop runs and no scope ends, an alarm is armed until its event is posted.
-/
import Liveboard.Proofs.Session.Turn

namespace Liveboard.Session

/-- An alarm for this purpose dies with the scope of the connection. -/
def Wake.isScoped : Wake → Bool
  | .errorExpiry _ _ => false
  | _ => true

variable {client : Client} {credential : Option String} {input : Input} {order : Order}
  {alarm : Alarm} {now : Nat}

theorem Order.wake_of_isPlain (plain : order.isPlain = true)
    (armed : order.alarm? now = some alarm) :
    alarm.isScoped = false ∧ alarm.wake.isScoped = false := by
  cases order with
  | armDetached after wake =>
    cases wake with
    | errorExpiry topic token => cases armed; exact ⟨rfl, rfl⟩
    | _ => cases plain
  | arm after wake => cases plain
  | _ => cases armed

theorem Asked.isScoped (asked : Asked client credential input order)
    (armed : order.alarm? now = some alarm) : alarm.isScoped = alarm.wake.isScoped := by
  cases asked with
  | attempt | endScope => cases armed
  | reconnect | resume | deadline => cases armed; rfl
  | plain h =>
    obtain ⟨detached, outlives⟩ := Order.wake_of_isPlain h armed
    rw [detached, outlives]

theorem Asked.isLive_of_reconnect (asked : Asked client credential input order)
    (armed : order.alarm? now = some alarm) (back : alarm.wake = .reconnect) :
    client.connection.isLive = true := by
  cases asked with
  | attempt | endScope => cases armed
  | reconnect live final => exact live
  | resume | deadline => cases armed; cases back
  | plain h =>
    have outlives := (Order.wake_of_isPlain h armed).2
    rw [back] at outlives
    cases outlives

theorem Client.isScoped_of_hangUp {world : World} {failure : Failure}
    (h : alarm ∈ (world.performAll (client.hangUp failure).2).1.alarms.armed) :
    alarm.isScoped = false := by
  have ends : (client.hangUp failure).2 = .endScope :: (client.hangUp failure).2.tail := rfl
  rw [ends, World.fst_performAll_cons] at h
  rcases World.of_mem_armed_performAll h with before | ⟨order, ordered, armed⟩
  · rcases World.mem_armed_perform.mp before with ⟨-, detached⟩ | armed
    · exact detached rfl
    · cases armed
  · rcases Client.of_mem_hangUp (List.mem_of_mem_tail ordered) with rfl | plain
    · cases armed
    · exact (Order.wake_of_isPlain plain armed).1

namespace System

variable {system : System} {move : Move} {after : System × List Record}

/-- Ending the loop ends the scope; nothing else than that is plain. -/
theorem of_mem_lastOrders (h : order ∈ system.lastOrders) :
    order = .endScope ∨ order.isPlain = true := by
  rcases hangUp_or_settle_of_mem_lastOrders h with h | ⟨ticket, rfl⟩
  · exact Client.of_mem_hangUp h
  · exact .inr rfl

/-- What is armed after a turn was armed before or is asked for by an input. -/
theorem Turn.of_mem_armed (turn : Turn system move after)
    (h : alarm ∈ after.1.world.alarms.armed) :
    alarm ∈ system.world.alarms.armed ∨ ∃ input order,
      Asked system.client system.credential input order ∧
        order.alarm? system.world.now = some alarm := by
  cases turn with
  | @handled move input sessionId taken goesOn =>
    rw [world_carryOut] at h
    rcases World.of_mem_armed_performAll h with before | ⟨order, ordered, armed⟩
    · rw [alarms_without] at before
      exact .inl before
    · rw [now_without] at armed
      exact .inr ⟨input, order, Client.asked_handle ordered, armed⟩
  | @ending left running next =>
    rw [world_stop] at h
    rcases World.of_mem_armed_performAll (World.of_mem_armed_deafen h) with
      before | ⟨order, ordered, armed⟩
    · exact .inl before
    · rcases of_mem_lastOrders ordered with rfl | plain
      · cases armed
      · exact .inr ⟨.command .disconnect, order, .plain plain, armed⟩
  | surroundings move => exact .inl ((World.stir_step _ move).of_mem_armed h)
  | submission ask batches running => exact .inl h
  | idle credential handles batches results => exact .inl h

/-- What is posted after a turn was posted before, is news of a link, or was armed. -/
theorem Turn.of_mem_events {event : Event} (turn : Turn system move after)
    (h : event ∈ after.1.world.events) :
    event ∈ system.world.events ∨ (∃ generation news, event = .link generation news) ∨
      ∃ alarm ∈ system.world.alarms.armed, event = .wake alarm.wake := by
  cases turn with
  | @handled move input sessionId taken goesOn =>
    rw [world_carryOut, World.events_performAll] at h
    cases input with
    | command command => exact .inl h
    | event taken => exact .inl (List.mem_of_mem_tail h)
  | ending running next =>
    rw [world_stop, World.events_deafen] at h
    cases h
  | surroundings move => exact (World.stir_step _ move).of_mem_events h
  | submission => exact .inl h
  | idle => exact .inl h

/-- Only a disconnect ends the scope while the loop goes on. -/
theorem not_mem_handle_of_not_disconnect {sessionId : String}
    (keeps : input ≠ .command .disconnect) :
    .endScope ∉ (client.handle credential sessionId input).2 := by
  intro ends
  cases Client.asked_handle ends with
  | endScope => exact keeps rfl
  | plain h => cases h

theorem Turn.isRunning_of (turn : Turn system move after) (goesOn : after.1.isRunning = true) :
    system.isRunning = true := by
  cases turn with
  | handled => rw [isRunning_carryOut, isRunning_without] at goesOn; exact goesOn
  | ending running next => exact running
  | _ => exact goesOn

theorem isRunning_of_run {moves : List Move} (goesOn : (system.run moves).1.isRunning = true) :
    system.isRunning = true :=
  run_induction (P := fun later => later.isRunning = true → system.isRunning = true) id
    (fun turn earlier running => earlier (turn.isRunning_of running)) moves goesOn

/-- While the loop runs and no scope ends, an alarm stays armed until it rings. -/
theorem Turn.armed_or_rang (turn : Turn system move after)
    (goesOn : after.1.isRunning = system.isRunning)
    (keeps : ¬Takes (.command .disconnect) system move)
    (h : alarm ∈ system.world.alarms.armed) :
    alarm ∈ after.1.world.alarms.armed ∨
      alarm.due ≤ system.world.now ∧
        (system.world.isListening = true → .wake alarm.wake ∈ after.1.world.events) := by
  cases turn with
  | @handled move input sessionId taken =>
    have scope : .endScope ∉ (system.client.handle system.credential sessionId input).2 :=
      not_mem_handle_of_not_disconnect fun same => keeps (by rw [Takes, taken, same])
    rw [world_carryOut]
    exact .inl (World.mem_armed_performAll_of_mem scope (by rw [alarms_without]; exact h))
  | ending running next => rw [isRunning_stop, running] at goesOn; cases goesOn
  | surroundings move => exact (World.stir_step _ move).armed_or_rang h
  | submission => exact .inl h
  | idle => exact .inl h

/-- An alarm that is detached stays armed until it rings, whatever the loop does. -/
theorem Turn.detached_or_rang (turn : Turn system move after) (detached : alarm.isScoped = false)
    (h : alarm ∈ system.world.alarms.armed) :
    alarm ∈ after.1.world.alarms.armed ∨
      alarm.due ≤ system.world.now ∧
        (system.world.isListening = true → .wake alarm.wake ∈ after.1.world.events) := by
  cases turn with
  | handled sessionId taken goesOn =>
    rw [world_carryOut]
    exact .inl (World.mem_armed_performAll_of_detached detached (by rw [alarms_without]; exact h) _)
  | ending running next =>
    rw [world_stop]
    exact .inl (World.mem_armed_deafen (World.mem_armed_performAll_of_detached detached h _))
  | surroundings move => exact (World.stir_step _ move).armed_or_rang h
  | submission => exact .inl h
  | idle => exact .inl h

theorem Turn.armed_or_posted (turn : Turn system move after)
    (listening : system.world.isListening = true) (goesOn : after.1.isRunning = true)
    (keeps : ¬Takes (.command .disconnect) system move)
    (h : alarm ∈ system.world.alarms.armed) :
    alarm ∈ after.1.world.alarms.armed ∨ .wake alarm.wake ∈ after.1.world.events :=
  (turn.armed_or_rang (goesOn.trans (turn.isRunning_of goesOn).symm) keeps h).imp_right
    fun rang => rang.2 listening

theorem Turn.posted_or_takes {event : Event} (turn : Turn system move after)
    (goesOn : after.1.isRunning = true) (h : event ∈ system.world.events) :
    event ∈ after.1.world.events ∨ Takes (.event event) system move := by
  cases turn with
  | @handled move input sessionId taken =>
    rw [world_carryOut, World.events_performAll]
    cases input with
    | command command => exact .inl h
    | event first =>
      obtain ⟨-, -, next⟩ := of_input?_event taken
      rw [next] at h
      rcases List.mem_cons.mp h with rfl | later
      · exact .inr taken
      · exact .inl later
  | ending running next => rw [isRunning_stop] at goesOn; cases goesOn
  | surroundings move => exact .inl ((World.stir_step _ move).mem_events h)
  | submission => exact .inl h
  | idle => exact .inl h

theorem Turn.isListening_of (turn : Turn system move after)
    (listening : system.isRunning = true → system.world.isListening = true)
    (goesOn : after.1.isRunning = true) : after.1.world.isListening = true := by
  have before := listening (turn.isRunning_of goesOn)
  cases turn with
  | handled => rw [world_carryOut, World.isListening_performAll, isListening_without]; exact before
  | ending running next => rw [isRunning_stop] at goesOn; cases goesOn
  | surroundings move => exact (World.stir_step _ move).isListening.trans before
  | _ => exact before

/-- Every alarm is armed in the scope that its purpose belongs to. -/
def AlarmsScoped (system : System) : Prop :=
  ∀ alarm ∈ system.world.alarms.armed, alarm.isScoped = alarm.wake.isScoped

theorem Turn.alarmsScoped (turn : Turn system move after) (kept : AlarmsScoped system) :
    AlarmsScoped after.1 := by
  intro alarm h
  rcases turn.of_mem_armed h with before | ⟨input, order, asked, armed⟩
  · exact kept alarm before
  · exact asked.isScoped armed

theorem alarmsScoped_run (settings : Settings) (credential : Option String)
    (moves : List Move) : AlarmsScoped ((start settings credential).run moves).1 := by
  apply run_induction
  · intro alarm h
    cases h
  · exact Turn.alarmsScoped

end System
end Liveboard.Session
