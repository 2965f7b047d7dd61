/-
  Liveboard/Proofs/Session/Comeback.lean
  ======================================
  **A client that lost its link comes back.**

  Whoever is disconnected after an attempt has a reconnect to come, due one delay after the
  last close: the end of a link arms it, nothing but a disconnect takes it back, and the
  loop does not take its event without starting a link (`Turn.awaits`).  The clock does not
  pass an alarm that is armed, so by the time it is past that hour and the events are all
  taken, a link was started (`reconnect_awaited`).
-/
import Liveboard.Proofs.Session.Pacing

namespace Liveboard.Session.System

variable {settings : Settings} {system : System} {move : Move} {after : System × List Record}
  {closes : List Close} {due : Nat}

/-- The loop takes the event of a reconnect while the provider has no credential. -/
def Refuses (system : System) (move : Move) : Prop :=
  Takes (.event (.wake .reconnect)) system move ∧ system.credential = none

/-- A reconnect is armed for this time, or the event of one is posted. -/
def Awaits (due : Nat) (system : System) : Prop :=
  ⟨due, .reconnect, true⟩ ∈ system.world.alarms.armed ∨ .wake .reconnect ∈ system.world.events

/-! ### A provider that always has a credential -/

@[simp] theorem credential_stop (system : System) :
    system.stop.1.credential = system.credential := by
  simp [stop_eq, lastTurn]

theorem credential_submit (system : System) (ask : Ask) :
    (system.submit ask).credential = system.credential := by
  unfold submit
  split <;> rfl

theorem credential_takeCommand (system : System) :
    system.takeCommand.1.credential = system.credential := by
  unfold takeCommand
  split
  · rfl
  · split
    · exact credential_stop _
    · exact credential_carryOut _ _ _
    · split
      · rfl
      · exact credential_stop _

theorem credential_takeEvent (system : System) (sessionId : String) :
    (system.takeEvent sessionId).1.credential = system.credential := by
  unfold takeEvent
  split
  · rfl
  · split
    · exact credential_carryOut _ _ _
    · rfl

theorem credential_runBatch (system : System) (index : Nat) :
    (system.runBatch index).credential = system.credential := by
  unfold runBatch
  split
  · rfl
  · split
    · rfl
    · split <;> rfl
    · split
      · rfl
      · exact credential_submit _ _

/-- Only the provider changes its credential. -/
theorem credential_step (system : System) (move : Move) :
    (system.step move).1.credential =
      match move with
      | .setCredential credential => credential
      | _ => system.credential := by
  cases move with
  | takeCommand => exact credential_takeCommand system
  | takeEvent sessionId => exact credential_takeEvent system sessionId
  | submit ask => exact credential_submit system ask
  | runBatch index => exact credential_runBatch system index
  | _ => rfl

theorem not_sometime_refuses {moves : List Move} (given : system.credential.isSome = true)
    (kept : ∀ credential, .setCredential credential ∈ moves → credential.isSome = true) :
    ¬Sometime Refuses system moves := by
  induction moves generalizing system with
  | nil => exact id
  | cons move moves ih =>
    rintro (⟨-, none⟩ | later)
    · rw [none] at given
      cases given
    · refine ih ?_ (fun credential set => kept credential (List.mem_cons_of_mem _ set)) later
      rw [credential_step]
      split
      · exact kept _ List.mem_cons_self
      · exact given

/-! ### What is to come -/

/-- While disconnected, what is awaited stays so until a link is started. -/
theorem Turn.awaits (turn : Turn system move after)
    (phase : system.client.connection.phase = .disconnected)
    (listening : system.world.isListening = true) (goesOn : after.1.isRunning = true)
    (keeps : ¬Takes (.command .disconnect) system move) (given : ¬Refuses system move)
    (still : ¬Starts system move) (awaits : Awaits due system) : Awaits due after.1 := by
  rcases awaits with armed | posted
  · exact turn.armed_or_posted listening goesOn keeps armed
  · rcases turn.posted_or_takes goesOn posted with posted | taken
    · exact .inr posted
    · -- the event would have started a link
      refine absurd ⟨⟨_, taken, rfl⟩, ?_, ?_⟩ still
      · exact Option.isSome_iff_ne_none.mpr fun none => given ⟨taken, none⟩
      · exact Connection.isLive_eq_false_iff.mpr (.inl phase)

/-- Whoever is disconnected after an attempt awaits a reconnect, one delay after the last
    close. -/
def ComesBack (settings : Settings) (closes : List Close) (system : System) : Prop :=
  system.client.connection.phase = .disconnected → 0 < system.client.connection.generation →
    ∃ last, closes.getLast? = some last ∧ Awaits (last.time + settings.reconnectDelay) system

theorem ComesBack.turn (comesBack : ComesBack settings closes system)
    (turn : Turn system move after) (attends : Attends system)
    (same : system.client.connection.settings = settings) (given : ¬Refuses system move) :
    ComesBack settings (closes ++ (system.close? move).toList) after.1 := by
  intro phase attempted
  rcases turn.of_disconnected phase with ⟨close, closed⟩ |
    ⟨closed, still, keeps, before, running, generation⟩
  · rw [closed, Option.toList_some]
    refine ⟨close, List.getLast?_concat, .inl ?_⟩
    rw [turn.armed_of_close closed, same]
    exact List.mem_append_right _ List.mem_cons_self
  · have goesOn : system.isRunning = true := by
      cases halted : system.isRunning with
      | true => rfl
      | false =>
        rw [attends.shut halted] at before
        cases before
    rw [generation] at attempted
    obtain ⟨last, isLast, awaits⟩ := comesBack before attempted
    rw [closed, Option.toList_none, List.append_nil]
    exact ⟨last, isLast, turn.awaits before (attends.listens goesOn) (running.trans goesOn)
      keeps given still awaits⟩

theorem comesBack_run {credential : Option String} {moves : List Move}
    (given : ¬Sometime Refuses (start settings credential) moves) :
    ComesBack settings ((start settings credential).closes moves)
      ((start settings credential).run moves).1 := by
  refine history_induction (P := fun history system =>
    ¬Sometime Refuses (start settings credential) history →
      ComesBack settings ((start settings credential).closes history) system) ?_ ?_ moves given
  · intro _ _ attempted
    cases attempted
  · intro history move comesBack given
    rw [sometime_concat, not_or] at given
    rw [System.closes, noted_concat]
    exact (comesBack given.1).turn (turn_step _ move) (attends_run settings credential history)
      (timed_run settings credential history).same given.2

/-! ### When it comes -/

theorem Turn.isPunctual (turn : Turn system move after) (punctual : system.world.IsPunctual) :
    after.1.world.IsPunctual := by
  intro alarm armed
  have inTime : system.world.now ≤ alarm.due := by
    rcases turn.of_mem_armed armed with before | ⟨input, order, -, asked⟩
    · exact punctual alarm before
    · exact Order.le_due_of_alarm? asked
  cases turn with
  | handled => rwa [world_carryOut, World.now_performAll, now_without]
  | ending => rwa [world_stop, World.now_deafen, World.now_performAll]
  | surroundings move => exact punctual.step move alarm armed
  | submission => exact inTime
  | idle => exact inTime

theorem isPunctual_run (settings : Settings) (credential : Option String) (moves : List Move) :
    ((start settings credential).run moves).1.world.IsPunctual := by
  refine run_induction (P := fun system => system.world.IsPunctual) ?_ Turn.isPunctual moves
  intro alarm none
  cases none

/-- Until a link is started, a disconnected session goes on awaiting the same reconnect. -/
theorem awaits_run {later : List Move} (attends : Attends system)
    (phase : system.client.connection.phase = .disconnected) (awaits : Awaits due system)
    (given : ¬Sometime Refuses system later)
    (keeps : ¬Sometime (Takes (.command .disconnect)) system later)
    (goesOn : (system.run later).1.isRunning = true)
    (still : (system.run later).1.client.connection.generation =
      system.client.connection.generation) :
    Awaits due (system.run later).1 := by
  induction later generalizing system with
  | nil => exact awaits
  | cons move later ih =>
    simp only [Sometime, not_or] at given keeps
    have turn := turn_step system move
    have running : (system.step move).1.isRunning = true := isRunning_of_run goesOn
    have least := generation_le_run (system.step move).1 later
    have last : ((system.step move).1.run later).1.client.connection.generation =
        system.client.connection.generation := still
    -- a link started here would have taken a generation that the run ends without
    have calm : ¬Starts system move := by
      intro starts
      rcases turn.attempts with ⟨-, grown, -⟩ | ⟨none, -⟩
      · omega
      · exact none starts
    obtain ⟨next, same⟩ := turn.disconnected phase running calm keeps.1
    have waits := turn.awaits phase (attends.listens (turn.isRunning_of running)) running keeps.1
      given.1 calm awaits
    exact ih (turn.attends attends) next waits given.2 keeps.2 goesOn (last.trans same.symm)

/-- **A client that lost its link comes back.**  As long as the provider has a credential
    whenever a reconnect asks for one, a session that is disconnected after an attempt has a
    reconnect to come: armed for one delay after the last close, or posted.  Once the clock
    is past that time and no event is left, a new generation was started, unless a
    disconnect was handled or the loop came to its end. -/
theorem reconnect_awaited {settings : Settings} {credential : Option String} {moves : List Move}
    (given : ¬Sometime Refuses (start settings credential) moves) :
    let system := start settings credential
    let reached := (system.run moves).1
    reached.client.connection.phase = .disconnected →
      0 < reached.client.connection.generation →
      ∃ last, (system.closes moves).getLast? = some last ∧
        Awaits (last.time + settings.reconnectDelay) reached ∧
        ∀ later, ¬Sometime Refuses reached later →
          ¬Sometime (Takes (.command .disconnect)) reached later →
          let after := (reached.run later).1
          after.isRunning = true → last.time + settings.reconnectDelay < after.world.now →
            after.world.events = [] →
            reached.client.connection.generation < after.client.connection.generation := by
  intro system reached phase attempted
  obtain ⟨last, isLast, awaits⟩ := comesBack_run given phase attempted
  refine ⟨last, isLast, awaits, ?_⟩
  intro later provided keeps after goesOn past drained
  refine Nat.lt_of_le_of_ne (generation_le_run reached later) fun still => ?_
  rcases awaits_run (attends_run settings credential moves) phase awaits provided keeps goesOn
      still.symm with armed | posted
  · have punctual := isPunctual_run settings credential (moves ++ later)
    rw [run_append] at punctual
    exact Nat.not_le_of_lt past (punctual _ armed)
  · have none : .wake .reconnect ∈ after.world.events := posted
    rw [drained] at none
    cases none

/-- An attempt fails, the delay goes by, and the reconnect starts the second generation. -/
theorem reconnect_after_failed_attempt :
    let settings : Settings := ⟨"ws://localhost/ui", [], 3, 1, 10, 5⟩
    let moves : List Move :=
      [.submit .connect, .takeCommand, .world (.linkFails 1), .takeEvent ""]
    let later : List Move :=
      [.world (.wait 3), .world (.ring 0), .takeEvent "", .world (.wait 1)]
    let reached := ((start settings (some "token")).run moves).1
    Awaits 3 reached ∧
      reached.client.connection.generation <
        (reached.run later).1.client.connection.generation := by
  intro settings moves later reached
  have given : ¬Sometime Refuses (start settings (some "token")) moves :=
    not_sometime_refuses rfl (by simp [moves])
  have phase : reached.client.connection.phase = .disconnected := by decide +kernel
  have attempted : 0 < reached.client.connection.generation := by decide +kernel
  obtain ⟨last, isLast, awaits, comes⟩ := reconnect_awaited given phase attempted
  have time : last = ⟨1, 0⟩ := by
    have closed : ((start settings (some "token")).closes moves).getLast? = some ⟨1, 0⟩ := by
      decide +kernel
    exact (Option.some.inj (closed.symm.trans isLast)).symm
  subst time
  refine ⟨awaits, comes later ?_ ?_ ?_ ?_ ?_⟩
  · exact not_sometime_refuses (by decide +kernel) (by simp [later])
  · rintro (taken | taken | taken | taken | taken) <;> cases taken
  · decide +kernel
  · decide +kernel
  · decide +kernel

end Liveboard.Session.System
