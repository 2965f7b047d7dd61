/-
  Liveboard/Proofs/Session/Course.lean
  ====================================
  **The course of a connection: attempts, ends of links, disconnects.**

  An input starts a link, brings the news that the current link ended, hangs up, or leaves
  the connection as live as it was (`Client.bears_handle`).  `Turn.course` says the same of
  one move of a session; the closes of a run are the ends of links that the loop came to
  know of, with the time it did.
-/
import Liveboard.Proofs.Session.Attempts

namespace Liveboard.Session

/-! ### One input -/

namespace Client

/-- The input tells that the current link ended, while it was connecting or open. -/
def closes (client : Client) : Input → Bool
  | .event (.link generation (.reported event)) =>
    generation == client.connection.generation && client.connection.isLive && event.isFinal
  | _ => false

theorem closes_iff {client : Client} {input : Input} :
    client.closes input = true ↔
      client.connection.isLive = true ∧ ∃ event : LinkEvent, event.isFinal = true ∧
        input = .event (.link client.connection.generation (.reported event)) := by
  constructor
  · intro closes
    unfold Client.closes at closes
    split at closes
    · next generation event =>
      simp only [Bool.and_eq_true, beq_iff_eq] at closes
      obtain ⟨⟨rfl, live⟩, final⟩ := closes
      exact ⟨live, event, final, rfl⟩
    · cases closes
  · rintro ⟨live, event, final, rfl⟩
    simp [Client.closes, live, final]

/-- The input asks for a link while one can be started. -/
def starts (client : Client) (credential : Option String) (input : Input) : Prop :=
  input.connects = true ∧ credential.isSome = true ∧ client.connection.isLive = false

/-- What an input makes of the connection. -/
inductive Bears (client : Client) (credential : Option String) : Input → Connection → Prop where
  | starts {input : Input} {token : String} (connects : input.connects = true)
      (given : credential = some token) (free : client.connection.isLive = false) :
      Bears client credential input (client.connection.attempting token)
  | closes {input : Input} (closes : client.closes input = true) :
      Bears client credential input client.connection.onClose.1
  | hangsUp : Bears client credential (.command .disconnect) client.connection.disconnect.1
  | opens {channel : Nat} (sessionId : String) (activeChat : Option String)
      (live : client.connection.isLive = true) :
      Bears client credential (.event (.link client.connection.generation (.opened channel)))
        (client.connection.onOpen channel sessionId activeChat).1
  | stays {input : Input} (still : ¬client.starts credential input)
      (whole : client.closes input = false) (keeps : input ≠ .command .disconnect) :
      Bears client credential input client.connection

variable {client : Client} {credential : Option String}

theorem bears_connect {input : Input} (connects : input.connects = true) :
    Bears client credential input (client.connection.connect credential).1 := by
  have whole : client.closes input = false := by
    refine Bool.eq_false_iff.mpr fun closes => ?_
    obtain ⟨-, event, -, rfl⟩ := closes_iff.mp closes
    cases connects
  have keeps : input ≠ .command .disconnect := by
    rintro rfl
    cases connects
  cases credential with
  | none => exact .stays (by simp [starts]) whole keeps
  | some token =>
    cases live : client.connection.isLive with
    | true =>
      rw [Connection.connect_of_isLive live]
      exact .stays (by simp [starts, live]) whole keeps
    | false =>
      rw [Connection.connect_of_not_isLive live]
      exact .starts connects rfl live

theorem bears_onNews (generation : Nat) (news : LinkNews) (sessionId : String) :
    Bears client credential (.event (.link generation news))
      (client.onNews generation news sessionId).1.connection := by
  have handled := Connection.handled_handle client.connection generation news sessionId
    client.board.activeChat
  rw [connection_onNews]
  revert handled
  generalize client.connection.handle generation news sessionId client.board.activeChat = result
  intro handled
  cases handled with
  | stale channels late =>
    refine .stays (by simp [starts, Input.connects]) ?_ (by simp)
    refine Bool.eq_false_iff.mpr fun closes => ?_
    obtain ⟨live, event, -, same⟩ := closes_iff.mp closes
    cases same
    rcases late with other | free
    · exact other rfl
    · rw [free] at live
      cases live
  | opened current live =>
    subst current
    exact .opens sessionId client.board.activeChat live
  | frame current live =>
    exact .stays (by simp [starts, Input.connects]) (by simp [closes, LinkEvent.isFinal]) (by simp)
  | closed current live final =>
    subst current
    exact .closes (closes_iff.mpr ⟨live, _, final, rfl⟩)

/-- Every input starts a link, ends one, hangs up, opens the link, or leaves the connection
    alone. -/
theorem bears_handle (client : Client) (credential : Option String) (sessionId : String)
    (input : Input) :
    Bears client credential input (client.handle credential sessionId input).1.connection := by
  cases input with
  | command command =>
    rw [handle, connection_onCommand]
    cases command with
    | connect => exact bears_connect rfl
    | disconnect => exact .hangsUp
    | _ => exact .stays (by simp [starts, Input.connects]) rfl (by simp)
  | event event =>
    rcases event with ⟨generation, news⟩ | wake
    · exact bears_onNews generation news sessionId
    · rw [handle, onEvent, connection_onWake]
      cases wake with
      | reconnect => exact bears_connect rfl
      | _ => exact .stays (by simp [starts, Input.connects]) rfl (by simp)

end Client

/-! ### One move -/

/-- The end of a link, as the loop came to know of it. -/
structure Close where
  generation : Nat
  time : Nat
deriving DecidableEq

namespace System

variable {system : System} {move : Move} {after : System × List Record}

def close? (system : System) (move : Move) : Option Close :=
  (system.input? move).bind fun input =>
    if system.client.closes input then
      some ⟨system.client.connection.generation, system.world.now⟩
    else none

/-- The links that ended in the course of a run, in the order the loop heard of it. -/
def closes (system : System) (moves : List Move) : List Close := system.noted close? moves

theorem close?_of_takes {input : Input} (taken : Takes input system move) :
    system.close? move =
      if system.client.closes input then
        some ⟨system.client.connection.generation, system.world.now⟩
      else none := by
  rw [close?, taken]
  rfl

theorem of_close? {close : Close} (closes : system.close? move = some close) :
    ∃ input, Takes input system move ∧ system.client.closes input = true ∧
      close = ⟨system.client.connection.generation, system.world.now⟩ := by
  obtain ⟨input, taken, closed⟩ := Option.bind_eq_some_iff.mp closes
  split at closed
  · next ended => exact ⟨input, taken, ended, (Option.some.inj closed).symm⟩
  · cases closed

theorem starts_of_takes {input : Input} (taken : Takes input system move) :
    Starts system move ↔ system.client.starts system.credential input := by
  constructor
  · rintro ⟨⟨other, taken', connects⟩, can⟩
    rw [Takes, taken, Option.some.injEq] at taken'
    subst taken'
    exact ⟨connects, can⟩
  · rintro ⟨connects, can⟩
    exact ⟨⟨input, taken, connects⟩, can⟩

/-- What a move makes of the connection. -/
inductive Course (system : System) (move : Move) (after : System) : Prop where
  | starts (starts : Starts system move) (closes : system.close? move = none)
      (phase : after.client.connection.phase = .connecting)
      (generation : after.client.connection.generation = system.client.connection.generation + 1)
  | closes {close : Close} (still : ¬Starts system move)
      (closes : system.close? move = some close)
      (current : close = ⟨system.client.connection.generation, system.world.now⟩)
      (live : system.client.connection.isLive = true)
      (phase : after.client.connection.phase = .disconnected)
      (generation : after.client.connection.generation = system.client.connection.generation)
  | hangsUp (still : ¬Starts system move) (closes : system.close? move = none)
      (ends : Takes (.command .disconnect) system move ∨ after.isRunning = false)
      (phase : after.client.connection.phase = .closed)
      (generation : after.client.connection.generation = system.client.connection.generation)
  | stays (still : ¬Starts system move) (closes : system.close? move = none)
      (keeps : ¬Takes (.command .disconnect) system move)
      (isRunning : after.isRunning = system.isRunning)
      (phase : after.client.connection.phase = system.client.connection.phase ∨
        system.client.connection.isLive = true ∧ after.client.connection.phase = .connected)
      (generation : after.client.connection.generation = system.client.connection.generation)

theorem Turn.settings (turn : Turn system move after) :
    after.1.client.connection.settings = system.client.connection.settings := by
  cases turn with
  | @handled move input sessionId taken goesOn =>
    rw [client_carryOut]
    have bears := Client.bears_handle system.client system.credential sessionId input
    generalize (system.client.handle system.credential sessionId input).1.connection = next at bears
    cases bears <;> rfl
  | ending running next =>
    rw [client_stop]
    rfl
  | _ => rfl

theorem settings_run (settings : Settings) (credential : Option String) (moves : List Move) :
    ((start settings credential).run moves).1.client.connection.settings = settings :=
  run_induction (P := fun system => system.client.connection.settings = settings) rfl
    (fun turn same => turn.settings.trans same) moves

theorem Turn.now_le (turn : Turn system move after) : system.world.now ≤ after.1.world.now := by
  cases turn with
  | handled =>
    exact Nat.le_of_eq (by rw [world_carryOut, World.now_performAll, now_without])
  | ending =>
    exact Nat.le_of_eq (by rw [world_stop, World.now_deafen, World.now_performAll])
  | surroundings move => exact World.now_le_step system.world move
  | _ => exact Nat.le_refl _

theorem now_le_run (system : System) (moves : List Move) :
    system.world.now ≤ (system.run moves).1.world.now :=
  run_induction (P := fun later => system.world.now ≤ later.world.now) (Nat.le_refl _)
    (fun turn earlier => Nat.le_trans earlier turn.now_le) moves

theorem close?_of_nothing (nothing : system.input? move = none) : system.close? move = none := by
  rw [close?, nothing]
  rfl

/-- Handling an input makes of the connection what the input bears. -/
theorem Course.of_bears {input : Input} {next : System} (taken : Takes input system move)
    (running : next.isRunning = system.isRunning)
    (bears : Client.Bears system.client system.credential input next.client.connection) :
    Course system move next := by
  have closes := close?_of_takes taken
  have starts := starts_of_takes taken
  generalize same : next.client.connection = connection at bears
  cases bears with
  | starts connects given free =>
    have whole : system.client.closes input = false := by
      refine Bool.eq_false_iff.mpr fun ended => ?_
      rw [(Client.closes_iff.mp ended).1] at free
      cases free
    refine .starts (starts.mpr ⟨connects, by rw [given]; rfl, free⟩) ?_ ?_ ?_
    · rw [closes, whole]
      rfl
    · rw [same]
      rfl
    · rw [same]
      rfl
  | closes ended =>
    obtain ⟨live, event, -, rfl⟩ := Client.closes_iff.mp ended
    refine .closes (fun begins => ?_) ?_ rfl live ?_ ?_
    · cases (starts.mp begins).1
    · rw [closes, if_pos ended]
    · rw [same]
      rfl
    · rw [same]
      rfl
  | hangsUp =>
    refine .hangsUp (fun begins => ?_) closes (.inl taken) ?_ ?_
    · cases (starts.mp begins).1
    · rw [same]
      rfl
    · rw [same]
      rfl
  | opens sessionId activeChat live =>
    refine .stays (fun begins => ?_) closes (fun hangsUp => ?_) running ?_ ?_
    · cases (starts.mp begins).1
    · rw [Takes, taken] at hangsUp
      cases hangsUp
    · rw [same]
      exact .inr ⟨live, rfl⟩
    · rw [same]
      rfl
  | stays still whole keeps =>
    refine .stays (fun begins => still (starts.mp begins)) ?_ (fun hangsUp => ?_) running ?_ ?_
    · rw [closes, whole]
      rfl
    · rw [Takes, taken, Option.some.injEq] at hangsUp
      exact keeps hangsUp
    · exact .inl (congrArg Connection.phase same)
    · exact congrArg Connection.generation same

theorem Turn.course (turn : Turn system move after) : Course system move after.1 := by
  have attempts := turn.attempts
  cases turn with
  | @handled move input sessionId taken goesOn =>
    refine .of_bears taken ?_ ?_
    · rw [isRunning_carryOut, isRunning_without]
    · rw [client_carryOut]
      exact Client.bears_handle system.client system.credential sessionId input
  | @ending left running next =>
    have still : ¬Starts system .takeCommand := by
      rcases attempts with ⟨-, grown, -⟩ | ⟨still, -⟩
      · rw [client_stop] at grown
        exact absurd grown (Nat.ne_of_lt (Nat.lt_succ_self _))
      · exact still
    refine .hangsUp still ?_ (.inr (isRunning_stop _)) ?_ ?_
    · rcases next with next | ⟨next, -⟩
      · rw [close?, input?, if_pos running, next]
        rfl
      · exact close?_of_nothing (by rw [input?, if_pos running, next]; rfl)
    · rw [client_stop]
      rfl
    · rw [client_stop]
      rfl
  | surroundings move =>
    refine .stays ?_ rfl ?_ rfl (.inl rfl) rfl
    · rintro ⟨⟨input, taken, -⟩, -⟩
      cases taken
    · intro taken
      cases taken
  | submission nothing | idle nothing =>
    refine .stays ?_ (close?_of_nothing nothing) ?_ rfl (.inl rfl) rfl
    · rintro ⟨⟨input, taken, -⟩, -⟩
      rw [Takes, nothing] at taken
      cases taken
    · intro taken
      rw [Takes, nothing] at taken
      cases taken

/-- A connection that is live was so before, or was just started. -/
theorem Turn.of_isLive (turn : Turn system move after)
    (live : after.1.client.connection.isLive = true) :
    system.close? move = none ∧
      ((Starts system move ∧
          after.1.client.connection.generation = system.client.connection.generation + 1) ∨
        (system.client.connection.isLive = true ∧
          after.1.client.connection.generation = system.client.connection.generation)) := by
  rw [Connection.isLive_iff] at live
  rcases turn.course with ⟨starts, whole, -, grown⟩ | ⟨-, -, -, -, phase, -⟩ |
    ⟨-, -, -, phase, -⟩ | ⟨-, whole, -, -, phase, same⟩
  · exact ⟨whole, .inl ⟨starts, grown⟩⟩
  · rw [phase] at live
    rcases live with live | live <;> cases live
  · rw [phase] at live
    rcases live with live | live <;> cases live
  · refine ⟨whole, .inr ⟨?_, same⟩⟩
    rcases phase with phase | ⟨before, -⟩
    · rw [phase] at live
      exact Connection.isLive_iff.mpr live
    · exact before

/-- A disconnect leaves nothing live. -/
theorem Turn.not_disconnects (turn : Turn system move after)
    (live : after.1.client.connection.isLive = true) :
    ¬Takes (.command .disconnect) system move := by
  intro taken
  obtain ⟨sessionId, rfl⟩ := turn.of_takes taken (by simp)
  rw [client_carryOut] at live
  cases live

/-- What is disconnected just closed, or was disconnected before and left alone. -/
theorem Turn.of_disconnected (turn : Turn system move after)
    (phase : after.1.client.connection.phase = .disconnected) :
    (∃ close, system.close? move = some close) ∨
      (system.close? move = none ∧ ¬Starts system move ∧
        ¬Takes (.command .disconnect) system move ∧
        system.client.connection.phase = .disconnected ∧
        after.1.isRunning = system.isRunning ∧
        after.1.client.connection.generation = system.client.connection.generation) := by
  rcases turn.course with ⟨-, -, connecting, -⟩ | ⟨-, closes, -⟩ | ⟨-, -, -, shut, -⟩ |
    ⟨still, whole, keeps, running, same, generation⟩
  · rw [connecting] at phase
    cases phase
  · exact .inl ⟨_, closes⟩
  · rw [shut] at phase
    cases phase
  · refine .inr ⟨whole, still, keeps, ?_, running, generation⟩
    rcases same with same | ⟨-, connected⟩
    · rw [← same, phase]
    · rw [connected] at phase
      cases phase

/-- What is disconnected stays so until a link is started or a disconnect is handled. -/
theorem Turn.disconnected (turn : Turn system move after)
    (phase : system.client.connection.phase = .disconnected) (goesOn : after.1.isRunning = true)
    (still : ¬Starts system move) (keeps : ¬Takes (.command .disconnect) system move) :
    after.1.client.connection.phase = .disconnected ∧
      after.1.client.connection.generation = system.client.connection.generation := by
  have free := Connection.isLive_eq_false_iff.mpr (.inl phase)
  rcases turn.course with ⟨starts, -⟩ | ⟨-, -, -, live, -⟩ | ⟨-, -, ends, -⟩ |
    ⟨-, -, -, -, same, generation⟩
  · exact absurd starts still
  · rw [free] at live
    cases live
  · rcases ends with taken | halted
    · exact absurd taken keeps
    · rw [goesOn] at halted
      cases halted
  · rcases same with same | ⟨live, -⟩
    · exact ⟨same.trans phase, generation⟩
    · rw [free] at live
      cases live

/-! ### Loops that ended -/

/-- A loop that runs hears what is posted; one that ended is disconnected for good. -/
structure Attends (system : System) : Prop where
  listens : system.isRunning = true → system.world.isListening = true
  shut : system.isRunning = false → system.client.connection.phase = .closed

theorem Attends.isRunning_of_isLive (attends : Attends system)
    (live : system.client.connection.isLive = true) : system.isRunning = true := by
  refine eq_true_of_ne_false fun halted => ?_
  rw [Connection.isLive, attends.shut halted] at live
  cases live

theorem isRunning_of_takes {input : Input} (taken : Takes input system move) :
    system.isRunning = true := by
  cases input with
  | command command => exact (of_input?_command taken).2.1
  | event event => exact (of_input?_event taken).2.1

theorem Turn.attends (turn : Turn system move after) (attends : Attends system) :
    Attends after.1 := by
  refine ⟨turn.isListening_of attends.listens, fun halted => ?_⟩
  cases turn with
  | handled sessionId taken =>
    rw [isRunning_carryOut, isRunning_without, isRunning_of_takes taken] at halted
    cases halted
  | ending running next => rw [client_stop]; rfl
  | _ => exact attends.shut halted

theorem attends_run (settings : Settings) (credential : Option String) (moves : List Move) :
    Attends ((start settings credential).run moves).1 := by
  refine run_induction ?_ Turn.attends moves
  exact ⟨fun _ => rfl, fun halted => nomatch halted⟩

end System
end Liveboard.Session
