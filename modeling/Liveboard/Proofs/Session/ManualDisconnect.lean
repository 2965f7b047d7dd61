/-
  Liveboard/Proofs/Session/ManualDisconnect.lean
  ==============================================
  **How final a manual disconnect is.**

  After it the connection is closed and no reconnect is armed, and without a new command
  to connect both stay so, as long as no attempt starts (`Turn.isDown`).  One thing can
  still start one: the event of a reconnect that had been posted before the loop came to
  the disconnect.  `attempt_after_disconnect_iff` says that nothing else can, and that
  this can whenever such an event was there.
-/
import Liveboard.Proofs.Session.Attempts

namespace Liveboard.Session

theorem Client.phase_handle_of_closed {client : Client} {credential : Option String}
    {input : Input} (closed : client.connection.phase = .closed)
    (quiet : input.connects = false) (sessionId : String) :
    (client.handle credential sessionId input).1.connection.phase = .closed := by
  have free := Connection.isLive_eq_false_iff.mpr (.inr closed)
  cases input with
  | command command =>
    rw [handle, connection_onCommand]
    cases command with
    | connect => cases quiet
    | disconnect => rfl
    | _ => exact closed
  | event event =>
    rcases event with ⟨generation, news⟩ | wake
    · rw [handle, onEvent, connection_onNews]
      rw [(Connection.handled_handle _ _ _ _ _).eq_of_not_isLive free]
      exact closed
    · rw [handle, onEvent, connection_onWake]
      cases wake with
      | reconnect => cases quiet
      | _ => exact closed

namespace System

variable {system : System} {move : Move} {after : System × List Record}

/-- Disconnected by hand, with no reconnect armed. -/
structure IsDown (system : System) : Prop where
  closed : system.client.connection.phase = .closed
  noAlarm : ∀ alarm ∈ system.world.alarms.armed, alarm.wake ≠ .reconnect

theorem IsDown.isLive_eq_false (down : IsDown system) :
    system.client.connection.isLive = false :=
  Connection.isLive_eq_false_iff.mpr (.inr down.closed)

theorem Turn.isDown_of_disconnect (turn : Turn system move after)
    (kept : AlarmsScoped system) (taken : Takes (.command .disconnect) system move) :
    IsDown after.1 := by
  have keptAfter := turn.alarmsScoped kept
  obtain ⟨sessionId, rfl⟩ := turn.of_takes taken (by simp)
  constructor
  · rw [client_carryOut]
    rfl
  · intro alarm h back
    have inScope := keptAfter alarm h
    rw [world_carryOut] at h
    rw [Client.isScoped_of_hangUp h, back] at inScope
    cases inScope

/-- The session stays down until an attempt starts. -/
theorem Turn.isDown (turn : Turn system move after) (down : IsDown system)
    (still : ¬Starts system move) : IsDown after.1 := by
  have free := down.isLive_eq_false
  constructor
  · cases turn with
    | @handled move input sessionId given goesOn =>
      rw [client_carryOut]
      cases connects : input.connects with
      | false => exact Client.phase_handle_of_closed down.closed connects sessionId
      | true =>
        rw [Client.handle_of_connects connects]
        rcases system.client.attempts_connect system.credential with ⟨can, -⟩ | ⟨-, same⟩
        · exact absurd ⟨⟨input, given, connects⟩, can⟩ still
        · rw [same]
          exact down.closed
    | ending running next => rw [client_stop]; rfl
    | _ => exact down.closed
  · intro alarm h back
    rcases turn.of_mem_armed h with before | ⟨input, order, asked, armed⟩
    · exact down.noAlarm alarm before back
    · have live := asked.isLive_of_reconnect armed back
      rw [free] at live
      cases live

/-- The loop handles the event of a reconnect while a credential is there. -/
def HearsReconnect (system : System) (move : Move) : Prop :=
  Takes (.event (.wake .reconnect)) system move ∧ system.credential.isSome = true

/-- The run has no command to connect. -/
def NeverConnects (system : System) (moves : List Move) : Prop :=
  ¬Sometime (Takes (.command .connect)) system moves

/-- While the session is down, only the event of a reconnect starts an attempt by itself. -/
theorem IsDown.starts_iff (down : IsDown system)
    (byItself : ¬Takes (.command .connect) system move) :
    Starts system move ↔ HearsReconnect system move := by
  constructor
  · rintro ⟨⟨input, taken, connects⟩, given, -⟩
    cases input with
    | command command =>
      cases command with
      | connect => exact absurd taken byItself
      | _ => cases connects
    | event event =>
      rcases event with _ | wake
      · cases connects
      · cases wake with
        | reconnect => exact ⟨taken, given⟩
        | _ => cases connects
  · rintro ⟨taken, given⟩
    exact ⟨⟨_, taken, rfl⟩, given, down.isLive_eq_false⟩

theorem IsDown.attempts_run_iff (down : IsDown system) {moves : List Move}
    (byItself : NeverConnects system moves) :
    (system.run moves).2.filterMap Record.attempt? ≠ [] ↔
      Sometime HearsReconnect system moves := by
  induction moves generalizing system with
  | nil => simp [run, Sometime]
  | cons move moves ih =>
    simp only [NeverConnects, Sometime, not_or] at byItself
    rw [run, List.filterMap_append, Sometime]
    rcases (turn_step system move).attempts with ⟨starts, -, first⟩ | ⟨still, -, none⟩
    · rw [first]
      exact iff_of_true (by simp) (.inl ((down.starts_iff byItself.1).mp starts))
    · have silent : ¬HearsReconnect system move :=
        fun hears => still ((down.starts_iff byItself.1).mpr hears)
      rw [none, List.nil_append, ih ((turn_step system move).isDown down still) byItself.2]
      exact ⟨.inr, fun h => h.resolve_left silent⟩

/-- Without a reconnect among the posted events none is ever heard. -/
theorem IsDown.not_sometime_hearsReconnect (down : IsDown system) {moves : List Move}
    (byItself : NeverConnects system moves) (clear : .wake .reconnect ∉ system.world.events) :
    ¬Sometime HearsReconnect system moves := by
  induction moves generalizing system with
  | nil => exact id
  | cons move moves ih =>
    simp only [NeverConnects, Sometime, not_or] at byItself ⊢
    have turn := turn_step system move
    have silent : ¬HearsReconnect system move := by
      rintro ⟨taken, -⟩
      obtain ⟨-, -, first⟩ := of_input?_event taken
      rw [first] at clear
      exact clear List.mem_cons_self
    have still : ¬Starts system move :=
      fun starts => silent ((down.starts_iff byItself.1).mp starts)
    refine ⟨silent, ih (turn.isDown down still) byItself.2 ?_⟩
    intro posted
    rcases turn.of_mem_events posted with before | ⟨_, _, isNews⟩ | ⟨alarm, armed, isWake⟩
    · exact clear before
    · cases isNews
    · exact down.noAlarm alarm armed (Event.wake.inj isWake).symm

theorem Turn.of_takes_disconnect (turn : Turn system move after)
    (taken : Takes (.command .disconnect) system move) :
    after.1.isRunning = true ∧ after.1.world.events = system.world.events := by
  obtain ⟨-, running, -⟩ := of_input?_command taken
  obtain ⟨sessionId, rfl⟩ := turn.of_takes taken (by simp)
  rw [isRunning_carryOut, world_carryOut, World.events_performAll]
  exact ⟨running, rfl⟩

/-- A posted reconnect is heard once the loop takes all events up to it. -/
theorem exists_sometime_hearsReconnect {earlier later : List Event}
    (running : system.isRunning = true) (given : system.credential.isSome = true)
    (posted : system.world.events = earlier ++ .wake .reconnect :: later) :
    ∃ moves, NeverConnects system moves ∧ Sometime HearsReconnect system moves := by
  induction earlier generalizing system with
  | nil =>
    have taken : Takes (.event (.wake .reconnect)) system (.takeEvent "") := by
      simp [Takes, input?, running, posted]
    refine ⟨[.takeEvent ""], ?_, .inl ⟨taken, given⟩⟩
    rintro (connects | none)
    · rw [Takes, taken] at connects; cases connects
    · exact none
  | cons event earlier ih =>
    have taken : Takes (.event event) system (.takeEvent "") := by
      simp [Takes, input?, running, posted]
    obtain ⟨goesOn, same, rest⟩ := (turn_step system (.takeEvent "")).of_takes_event taken
    rw [posted] at rest
    obtain ⟨moves, byItself, hears⟩ := ih goesOn (by rw [same]; exact given) rest
    refine ⟨.takeEvent "" :: moves, ?_, .inr hears⟩
    rintro (connects | later)
    · rw [Takes, taken] at connects; cases connects
    · exact byItself later

def Attempted (records : List Record) : Prop :=
  ∃ generation url, .attempted generation url ∈ records

theorem attempted_iff {records : List Record} :
    Attempted records ↔ records.filterMap Record.attempt? ≠ [] := by
  constructor
  · rintro ⟨generation, url, recorded⟩ none
    have attempt : generation ∈ records.filterMap Record.attempt? :=
      List.mem_filterMap.mpr ⟨_, recorded, rfl⟩
    rw [none] at attempt
    cases attempt
  · intro some
    obtain ⟨generation, attempt⟩ := List.exists_mem_of_ne_nil _ some
    obtain ⟨record, recorded, same⟩ := List.mem_filterMap.mp attempt
    cases record with
    | attempted number url => exact ⟨number, url, recorded⟩
    | _ => cases same

/-- An attempt is on record exactly if the generation grew, and exactly if a link was
    started. -/
theorem attempted_run_iff (system : System) (moves : List Move) :
    (Attempted (system.run moves).2 ↔
      system.client.connection.generation < (system.run moves).1.client.connection.generation) ∧
    (Attempted (system.run moves).2 ↔
      (system.run moves).1.world.generations ≠ system.world.generations) := by
  obtain ⟨count, grown, attempts⟩ := attempts_run system moves
  rw [attempted_iff, generations_run, attempts, grown]
  constructor
  · simp [Nat.pos_iff_ne_zero]
  · simp

theorem IsDown.attempted_iff (down : IsDown system) {moves : List Move}
    (byItself : NeverConnects system moves) :
    Attempted (system.run moves).2 ↔ Sometime HearsReconnect system moves :=
  System.attempted_iff.trans (down.attempts_run_iff byItself)

theorem IsDown.exists_attempted_iff (down : IsDown system) (running : system.isRunning = true) :
    (∃ moves, NeverConnects system moves ∧ Attempted (system.run moves).2) ↔
      .wake .reconnect ∈ system.world.events := by
  constructor
  · rintro ⟨moves, byItself, attempted⟩
    refine Classical.byContradiction fun clear => ?_
    exact down.not_sometime_hearsReconnect byItself clear
      ((down.attempted_iff byItself).mp attempted)
  · intro waiting
    obtain ⟨earlier, later, parts⟩ := List.append_of_mem waiting
    -- the provider may have a credential again by the time the event is taken
    let provided : System := { system with credential := some "" }
    obtain ⟨moves, byItself, heard⟩ :
        ∃ moves, NeverConnects provided moves ∧ Sometime HearsReconnect provided moves :=
      exists_sometime_hearsReconnect running rfl parts
    have never : NeverConnects system (.setCredential (some "") :: moves) := by
      rintro (connects | sometime)
      · cases connects
      · exact byItself sometime
    exact ⟨_, never, (down.attempted_iff never).mpr (.inr heard)⟩

/-- **After a manual disconnect** a run without a command to connect starts an attempt
    exactly if the loop hears a reconnect on the way while a credential is there; it can
    come to that exactly if the event of a reconnect was posted, and not yet taken, when
    the disconnect was handled. -/
theorem attempt_after_disconnect_iff {settings : Settings} {credential : Option String}
    {history : List Move} {system : System} {move : Move}
    (reached : ((start settings credential).run history).1 = system)
    (taken : Takes (.command .disconnect) system move) :
    (∀ moves, NeverConnects (system.step move).1 moves →
      (Attempted ((system.step move).1.run moves).2 ↔
        Sometime HearsReconnect (system.step move).1 moves) ∧
      ((system.step move).1.client.connection.generation <
          ((system.step move).1.run moves).1.client.connection.generation ↔
        Sometime HearsReconnect (system.step move).1 moves) ∧
      (((system.step move).1.run moves).1.world.generations ≠
          (system.step move).1.world.generations ↔
        Sometime HearsReconnect (system.step move).1 moves)) ∧
    ((∃ moves, NeverConnects (system.step move).1 moves ∧
        Attempted ((system.step move).1.run moves).2) ↔
      .wake .reconnect ∈ system.world.events) := by
  subst reached
  have turn := turn_step ((start settings credential).run history).1 move
  have down := turn.isDown_of_disconnect (alarmsScoped_run settings credential history) taken
  obtain ⟨running, posted⟩ := turn.of_takes_disconnect taken
  constructor
  · intro moves byItself
    have hears := down.attempted_iff byItself
    obtain ⟨grows, spawns⟩ := attempted_run_iff
      (((start settings credential).run history).1.step move).1 moves
    exact ⟨hears, grows.symm.trans hears, spawns.symm.trans hears⟩
  · rw [← posted]
    exact down.exists_attempted_iff running

/-- The event of a reconnect is posted, the disconnect is handled first, and the session
    comes back by itself. -/
theorem attempt_after_disconnect_of_late_event :
    let system := ((start ⟨"ws://localhost/ui", [], 3000, 500, 10000, 5000⟩ (some "token")).run
      [.submit .connect, .takeCommand, .world (.linkFails 1), .takeEvent "", .world (.wait 3000),
        .world (.ring 0), .submit .disconnect]).1
    Takes (.command .disconnect) system .takeCommand ∧
      ∃ moves, NeverConnects (system.step .takeCommand).1 moves ∧
        Attempted ((system.step .takeCommand).1.run moves).2 := by
  have taken : Takes (.command .disconnect)
      ((start ⟨"ws://localhost/ui", [], 3000, 500, 10000, 5000⟩ (some "token")).run
        [.submit .connect, .takeCommand, .world (.linkFails 1), .takeEvent "",
          .world (.wait 3000), .world (.ring 0), .submit .disconnect]).1 .takeCommand := rfl
  exact ⟨taken, (attempt_after_disconnect_iff rfl taken).2.mpr (List.mem_singleton.mpr rfl)⟩

end System
end Liveboard.Session
