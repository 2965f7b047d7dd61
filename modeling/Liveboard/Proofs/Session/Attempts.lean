/-
  Liveboard/Proofs/Session/Attempts.lean
  ======================================
  **Connection attempts and their generations.**

  A move starts a link exactly when it hands the loop a command or an event that asks for
  one while a credential is there and no link is live (`Turn.attempts`).  Each attempt
  takes the next generation, so the attempts on record, the generation of the connection
  and the links that were started tell the same story (`attempts_run`).
-/
import Liveboard.Proofs.Session.Scope

namespace Liveboard.Session

namespace Client

variable {client : Client} {credential : Option String}

/-- Connecting starts one attempt or changes nothing. -/
theorem attempts_connect (client : Client) (credential : Option String) :
    ((credential.isSome = true ∧ client.connection.isLive = false) ∧
      (client.connect credential).1.connection.generation = client.connection.generation + 1 ∧
      (client.connect credential).2.filterMap Order.attempt? =
        [client.connection.generation + 1]) ∨
    (¬(credential.isSome = true ∧ client.connection.isLive = false) ∧
      client.connect credential = (client, [])) := by
  cases credential with
  | none => exact .inr ⟨by simp, rfl⟩
  | some token =>
    cases live : client.connection.isLive with
    | true =>
      refine .inr ⟨by simp, ?_⟩
      rw [connect, Connection.connect_of_isLive live]
    | false =>
      refine .inl ⟨⟨rfl, rfl⟩, ?_⟩
      rw [connect, Connection.connect_of_not_isLive live]
      exact ⟨rfl, rfl⟩

theorem handle_of_connects {input : Input} (connects : input.connects = true)
    (sessionId : String) :
    client.handle credential sessionId input = client.connect credential := by
  cases input with
  | command command => cases command <;> first | rfl | cases connects
  | event event =>
    rcases event with _ | wake
    · cases connects
    · cases wake <;> first | rfl | cases connects

theorem attempts_handle {input : Input} (quiet : input.connects = false) (sessionId : String) :
    (client.handle credential sessionId input).2.filterMap Order.attempt? = [] := by
  rw [List.filterMap_eq_nil_iff]
  intro order ordered
  cases asked_handle ordered with
  | attempt connects => rw [quiet] at connects; cases connects
  | plain h => cases order <;> first | rfl | cases h
  | _ => rfl

theorem generation_handle {input : Input} (quiet : input.connects = false)
    (sessionId : String) :
    (client.handle credential sessionId input).1.connection.generation =
      client.connection.generation := by
  cases input with
  | command command =>
    rw [handle, connection_onCommand]
    cases command with
    | connect => cases quiet
    | _ => rfl
  | event event =>
    rcases event with ⟨generation, news⟩ | wake
    · rw [handle, onEvent, connection_onNews]
      exact (Connection.handled_handle _ _ _ _ _).generation_eq
    · rw [handle, onEvent, connection_onWake]
      cases wake with
      | reconnect => cases quiet
      | _ => rfl

end Client

namespace System

variable {system : System} {move : Move} {after : System × List Record}

/-- The move makes the loop start a link. -/
def Starts (system : System) (move : Move) : Prop :=
  (∃ input, Takes input system move ∧ input.connects = true) ∧
    system.credential.isSome = true ∧ system.client.connection.isLive = false

theorem attempts_lastOrders (system : System) :
    system.lastOrders.filterMap Order.attempt? = [] := by
  rw [List.filterMap_eq_nil_iff]
  intro order ordered
  rcases of_mem_lastOrders ordered with rfl | plain
  · rfl
  · cases order <;> first | rfl | cases plain

/-- A turn that starts a link takes the next generation; any other starts none. -/
theorem Turn.attempts (turn : Turn system move after) :
    (Starts system move ∧
      after.1.client.connection.generation = system.client.connection.generation + 1 ∧
      after.2.filterMap Record.attempt? = [system.client.connection.generation + 1]) ∨
    (¬Starts system move ∧
      after.1.client.connection.generation = system.client.connection.generation ∧
      after.2.filterMap Record.attempt? = []) := by
  cases turn with
  | @handled move input sessionId taken goesOn =>
    rw [client_carryOut, records_carryOut, World.filterMap_performAll World.attempts_perform]
    cases connects : input.connects with
    | true =>
      rw [Client.handle_of_connects connects]
      rcases system.client.attempts_connect system.credential with
        ⟨can, grown, attempted⟩ | ⟨cannot, same⟩
      · exact .inl ⟨⟨⟨_, taken, connects⟩, can⟩, grown, attempted⟩
      · rw [same]
        exact .inr ⟨fun starts => cannot starts.2, rfl, rfl⟩
    | false =>
      refine .inr ⟨?_, Client.generation_handle connects _, Client.attempts_handle connects _⟩
      rintro ⟨⟨_, asked, asks⟩, -⟩
      rw [Takes, taken, Option.some.injEq] at asked
      rw [← asked, connects] at asks
      cases asks
  | @ending left running next =>
    refine .inr ⟨?_, ?_, ?_⟩
    · rintro ⟨⟨input, taken, asks⟩, -⟩
      rcases next with next | ⟨next, -⟩
      · have shutdown : input = .command .shutdown := by
          simpa [Takes, input?, running, next, eq_comm] using taken
        rw [shutdown] at asks
        cases asks
      · simp [Takes, input?, next] at taken
    · rw [client_stop]
      rfl
    · rw [records_stop, List.filterMap_append,
        World.filterMap_performAll World.attempts_perform, attempts_lastOrders,
        World.filterMap_deafen World.attempts_perform (fun _ => rfl), List.append_nil]
  | surroundings move =>
    refine .inr ⟨?_, rfl, rfl⟩
    rintro ⟨⟨input, taken, -⟩, -⟩
    cases taken
  | submission nothing ask batches running =>
    refine .inr ⟨?_, rfl, rfl⟩
    rintro ⟨⟨input, taken, -⟩, -⟩
    rw [Takes, nothing] at taken
    cases taken
  | idle nothing credential handles batches results =>
    refine .inr ⟨?_, rfl, rfl⟩
    rintro ⟨⟨input, taken, -⟩, -⟩
    rw [Takes, nothing] at taken
    cases taken

theorem Turn.generation_le (turn : Turn system move after) :
    system.client.connection.generation ≤ after.1.client.connection.generation := by
  rcases turn.attempts with ⟨-, grown, -⟩ | ⟨-, same, -⟩ <;> omega

theorem Turn.generations (turn : Turn system move after) :
    after.1.world.generations =
      system.world.generations ++ after.2.filterMap Record.attempt? := by
  cases turn with
  | handled sessionId taken goesOn =>
    rw [world_carryOut, records_carryOut, World.generations_performAll, generations_without,
      World.filterMap_performAll World.attempts_perform]
  | ending running next =>
    rw [world_stop, records_stop, World.generations_deafen, World.generations_performAll,
      List.filterMap_append, World.filterMap_performAll World.attempts_perform,
      World.filterMap_deafen World.attempts_perform (fun _ => rfl), List.append_nil]
  | surroundings move => simp [(World.stir_step system.world move).generations]
  | submission => simp
  | idle => simp

/-- The attempts of a run are numbered one after the other, from the generation before it
    to the generation after it. -/
theorem attempts_run (system : System) (moves : List Move) :
    ∃ count,
      (system.run moves).1.client.connection.generation =
        system.client.connection.generation + count ∧
      (system.run moves).2.filterMap Record.attempt? =
        List.range' (system.client.connection.generation + 1) count := by
  induction moves generalizing system with
  | nil => exact ⟨0, rfl, rfl⟩
  | cons move moves ih =>
    obtain ⟨count, grown, attempted⟩ := ih (system.step move).1
    rcases (turn_step system move).attempts with ⟨-, next, first⟩ | ⟨-, next, none⟩
    · refine ⟨count + 1, ?_, ?_⟩
      · rw [run, grown, next]
        omega
      · rw [run, List.filterMap_append, attempted, first, next, List.range'_succ]
        rfl
    · refine ⟨count, ?_, ?_⟩
      · rw [run, grown, next]
      · rw [run, List.filterMap_append, attempted, none, next]
        rfl

theorem generation_le_run (system : System) (moves : List Move) :
    system.client.connection.generation ≤
      (system.run moves).1.client.connection.generation := by
  obtain ⟨count, grown, -⟩ := attempts_run system moves
  rw [grown]
  exact Nat.le_add_right _ _

theorem generations_run (system : System) (moves : List Move) :
    (system.run moves).1.world.generations =
      system.world.generations ++ (system.run moves).2.filterMap Record.attempt? := by
  induction moves generalizing system with
  | nil => simp [run]
  | cons move moves ih =>
    rw [run, ih, (turn_step system move).generations, List.filterMap_append, List.append_assoc]

end System
end Liveboard.Session
