/-
  Liveboard/Proofs/Session/ErrorTexts.lean
  ========================================
  **Error texts go in time, and not before.**

  Each frame that brings a text has an expiry armed, outside of the connection's scope and
  with the number of this text as its token.  Several of them may be outstanding when a text
  was replaced or cleared, but tokens are given once, so the expiry of an older text finds
  another token or no text.  `Timely` ties what is armed and posted to the marks of a topic;
  it is kept by every turn (`Timely.turn`), also by a disconnect.
-/
import Liveboard.Proofs.Board.Notices
import Liveboard.Proofs.Session.Comeback
import Liveboard.Proofs.Session.Display

namespace Liveboard.Session

variable {topic : Topic} {text : String} {token time : Nat}

namespace Client

variable {client : Client} {credential : Option String} {sessionId : String} {input : Input}
  {marks : List Mark}

/-- What an input makes of the error text on a topic. -/
def mark? (client : Client) (topic : Topic) (time : Nat) : Input → Option Mark
  | .event (.wake (.errorExpiry about token)) =>
    if client.board.expires about token then if about = topic then some .expired else none
    else none
  | input => (client.reads? input).bind (topic.mark? time)

theorem mark?_of_reads {frame : Frame} (read : client.reads? input = some frame) :
    client.mark? topic time input = topic.mark? time frame := by
  rcases input with command | ⟨generation, news⟩ | wake
  · cases read
  · simp only [mark?, read, Option.bind_some]
  · cases wake <;> cases read

theorem mark?_of_still (unread : client.reads? input = none)
    (late : ∀ about token, input = .event (.wake (.errorExpiry about token)) →
      client.board.expires about token = false) : client.mark? topic time input = none := by
  rcases input with command | ⟨generation, news⟩ | wake
  · rfl
  · simp only [mark?, unread, Option.bind_none]
  · cases wake with
    | errorExpiry about token => simp [mark?, late about token rfl]
    | _ => rfl

theorem of_mark?_expired (expired : client.mark? topic time input = some .expired) :
    ∃ token, input = .event (.wake (.errorExpiry topic token)) ∧
      client.board.expires topic token = true := by
  cases read : client.reads? input with
  | some frame =>
    rw [mark?_of_reads read] at expired
    exact absurd expired Topic.mark?_ne_expired
  | none =>
    unfold mark? at expired
    split at expired
    · next about token =>
      split at expired
      · next shown =>
        split at expired
        · next same =>
          subst same
          exact ⟨token, rfl, shown⟩
        · cases expired
      · cases expired
    · rw [read] at expired
      cases expired

theorem marked_handle (marked : Marked marks (client.board.notice topic)) (time : Nat) :
    Marked (marks ++ (client.mark? topic time input).toList)
      ((client.handle credential sessionId input).1.board.notice topic) := by
  have displays := client.displays_handle credential sessionId input
  generalize (client.handle credential sessionId input).1.board = board at displays
  generalize (client.handle credential sessionId input).2.filter Order.isDisplay = orders
    at displays
  cases displays with
  | frame read =>
    rw [mark?_of_reads read]
    exact Board.marked_apply marked time _
  | message isOpen => exact (Board.marked_pushUserMessage marked _).still
  | expiry shown =>
    simp only [mark?, if_pos shown]
    exact Board.marked_expire marked shown
  | still unread late =>
    rw [mark?_of_still unread late]
    exact marked.still

theorem isExclusive_handle (exclusive : client.board.IsExclusive) :
    (client.handle credential sessionId input).1.board.IsExclusive := by
  have displays := client.displays_handle credential sessionId input
  generalize (client.handle credential sessionId input).1.board = board at displays
  generalize (client.handle credential sessionId input).2.filter Order.isDisplay = orders
    at displays
  cases displays with
  | frame read => exact exclusive.apply _
  | message isOpen => exact exclusive
  | expiry shown => exact exclusive.expire _ _
  | still unread late => exact exclusive

theorem armDetached_mem_display {board : Board} {ttl after : Nat} {effect : Effect} :
    .armDetached after (.errorExpiry topic token) ∈ board.display ttl effect ↔
      effect = .armExpiry topic token ∧ after = ttl := by
  cases effect with
  | armExpiry about given =>
    simp [Board.display, and_comm, eq_comm]
  | _ => simp [Board.display]

theorem time_of_mark? {now : Nat}
    (set : client.mark? topic now input = some (.set text time)) : time = now := by
  cases read : client.reads? input with
  | some frame =>
    rw [mark?_of_reads read] at set
    exact (Topic.mark?_eq_set_iff.mp set).2
  | none =>
    unfold mark? at set
    split at set
    · split at set
      · split at set <;> cases set
      · cases set
    · rw [read] at set
      cases set

/-- Handling an input arms an expiry exactly if it brings a text, with the next token. -/
theorem armDetached_mem_handle {after : Nat} :
    .armDetached after (.errorExpiry topic token) ∈ (client.handle credential sessionId input).2 ↔
      after = client.connection.settings.errorTtl ∧
        token = (client.board.notice topic).token + 1 ∧
        ∃ text, client.mark? topic time input = some (.set text time) := by
  have displays := client.displays_handle credential sessionId input
  have shown : .armDetached after (.errorExpiry topic token) ∈
      (client.handle credential sessionId input).2.filter Order.isDisplay ↔
        .armDetached after (.errorExpiry topic token) ∈
          (client.handle credential sessionId input).2 := by
    rw [List.mem_filter]
    exact and_iff_left rfl
  rw [← shown]
  generalize (client.handle credential sessionId input).1.board = board at displays
  generalize (client.handle credential sessionId input).2.filter Order.isDisplay = orders
    at displays
  cases displays with
  | frame read =>
    simp only [mark?_of_reads read, Topic.mark?_eq_set_iff, and_true,
      ← Board.armExpiry_mem_apply, Board.displayAll, List.mem_flatMap, armDetached_mem_display]
    constructor
    · rintro ⟨effect, asked, rfl, same⟩
      exact ⟨same, asked⟩
    · rintro ⟨same, asked⟩
      exact ⟨_, asked, rfl, same⟩
  | message isOpen => simp [mark?, reads?]
  | @expiry about given shown =>
    simp only [mark?]
    split <;> simp
  | still unread late => simp [mark?_of_still unread late]

end Client

namespace System

/-- What a move makes of the error text on a topic. -/
def mark? (topic : Topic) (system : System) (move : Move) : Option Mark :=
  (system.input? move).bind (system.client.mark? topic system.world.now)

/-- The marks of the error text on a topic in the course of a run. -/
def marks (system : System) (topic : Topic) (moves : List Move) : List Mark :=
  system.noted (mark? topic) moves

variable {system : System} {move : Move} {after : System × List Record} {marks : List Mark}
  {ttl : Nat}

theorem mark?_of_takes {input : Input} (taken : Takes input system move) :
    system.mark? topic move = system.client.mark? topic system.world.now input := by
  rw [mark?, taken, Option.bind_some]

theorem mark?_of_nothing (nothing : system.input? move = none) :
    system.mark? topic move = none := by
  rw [mark?, nothing, Option.bind_none]

theorem mark?_of_takeCommand : system.mark? topic .takeCommand = none := by
  cases taken : system.input? .takeCommand with
  | none => exact mark?_of_nothing taken
  | some input =>
    rw [mark?_of_takes taken]
    cases input with
    | command command => rfl
    | event event =>
      obtain ⟨⟨sessionId, isEvent⟩, -⟩ := of_input?_event taken
      cases isEvent

/-! ### One turn -/

theorem Turn.marked (turn : Turn system move after)
    (marked : Marked marks (system.client.board.notice topic)) :
    Marked (marks ++ (system.mark? topic move).toList)
      (after.1.client.board.notice topic) := by
  cases turn with
  | handled sessionId taken goesOn =>
    rw [mark?_of_takes taken, client_carryOut]
    exact Client.marked_handle marked system.world.now
  | ending running next =>
    rw [mark?_of_takeCommand, client_stop]
    exact marked.still
  | surroundings move => exact marked.still
  | submission nothing | idle nothing =>
    rw [mark?_of_nothing nothing]
    exact marked.still

theorem Turn.isExclusive (turn : Turn system move after)
    (exclusive : system.client.board.IsExclusive) : after.1.client.board.IsExclusive := by
  cases turn with
  | handled sessionId taken goesOn =>
    rw [client_carryOut]
    exact Client.isExclusive_handle exclusive
  | ending running next =>
    rw [client_stop]
    exact exclusive
  | _ => exact exclusive

/-- An expiry that is armed was so before, or its text is set by this turn. -/
theorem Turn.of_armed_expiry {alarm : Alarm} (turn : Turn system move after)
    (h : alarm ∈ after.1.world.alarms.armed) (expiry : alarm.wake = .errorExpiry topic token) :
    alarm ∈ system.world.alarms.armed ∨
      alarm.due = system.world.now + system.client.connection.settings.errorTtl ∧
        token = (system.client.board.notice topic).token + 1 ∧
        ∃ text, system.mark? topic move = some (.set text system.world.now) := by
  rcases turn.armed_or_asked h with before | ⟨input, sessionId, order, taken, ordered, armed⟩
  · exact .inl before
  · have detached := (Client.asked_handle ordered).isScoped armed
    rw [expiry] at detached
    cases order with
    | armDetached millis wake =>
      cases armed
      cases expiry
      obtain ⟨rfl, next, set⟩ := Client.armDetached_mem_handle.mp ordered
      refine .inr ⟨rfl, next, ?_⟩
      rw [mark?_of_takes taken]
      exact set
    | arm millis wake =>
      cases armed
      cases detached
    | _ => cases armed

/-- A turn that sets a text arms its expiry. -/
theorem Turn.arms_expiry (turn : Turn system move after)
    (set : system.mark? topic move = some (.set text time)) :
    ⟨time + system.client.connection.settings.errorTtl,
      .errorExpiry topic ((system.client.board.notice topic).token + 1), false⟩ ∈
        after.1.world.alarms.armed := by
  cases turn with
  | @handled move input sessionId taken goesOn =>
    rw [mark?_of_takes taken] at set
    have now := Client.time_of_mark? set
    subst now
    have keeps : input ≠ .command .disconnect := by
      rintro rfl
      cases set
    have ordered : .armDetached system.client.connection.settings.errorTtl
        (.errorExpiry topic ((system.client.board.notice topic).token + 1)) ∈
          (system.client.handle system.credential sessionId input).2 :=
      Client.armDetached_mem_handle.mpr ⟨rfl, rfl, text, set⟩
    rw [world_carryOut]
    apply World.mem_armed_performAll_of_alarm (not_mem_handle_of_not_disconnect keeps) ordered
    rw [now_without]
    rfl
  | ending running next =>
    rw [mark?_of_takeCommand] at set
    cases set
  | surroundings move => cases set
  | submission nothing | idle nothing =>
    rw [mark?_of_nothing nothing] at set
    cases set

/-- Taking an expiry takes the text away that is on show under its token. -/
theorem Turn.of_takes_expiry (turn : Turn system move after)
    (taken : Takes (.event (.wake (.errorExpiry topic token))) system move) :
    after.1.client.board = system.client.board.expire topic token := by
  obtain ⟨sessionId, rfl⟩ := turn.of_takes taken (by simp)
  rw [client_carryOut]
  simp only [Client.handle, Client.onEvent, Client.onWake]
  split
  · rfl
  · next late => exact (Board.expire_of_not_expires (by simpa using late)).symm

/-! ### Runs -/

/-- What is armed and posted on a topic is owed to its marks, and the expiry of the text on
    show is not lost. -/
structure Timely (ttl : Nat) (topic : Topic) (marks : List Mark) (system : System) : Prop where
  marked : Marked marks (system.client.board.notice topic)
  armed : ∀ alarm ∈ system.world.alarms.armed, ∀ token, alarm.wake = .errorExpiry topic token →
    ∃ text time, Mark.given? marks token = some (text, time) ∧ alarm.due = time + ttl
  posted : ∀ token, .wake (.errorExpiry topic token) ∈ system.world.events →
    ∃ text time, Mark.given? marks token = some (text, time) ∧ time + ttl ≤ system.world.now
  outstanding : ∀ text time, marks.getLast? = some (.set text time) →
    ⟨time + ttl, .errorExpiry topic (Mark.lastToken marks), false⟩ ∈ system.world.alarms.armed ∨
      time + ttl ≤ system.world.now ∧
        (system.isRunning = true →
          .wake (.errorExpiry topic (Mark.lastToken marks)) ∈ system.world.events)

theorem timely_start (settings : Settings) (credential : Option String) (topic : Topic) :
    Timely ttl topic [] (start settings credential) := by
  refine ⟨?_, ?_, ?_, ?_⟩
  · cases topic <;> exact .fresh
  · intro alarm none
    cases none
  · intro token none
    cases none
  · intro text time none
    cases none

/-- Unless it is taken, an expiry that is outstanding stays so. -/
theorem Timely.kept (timely : Timely ttl topic marks system) (turn : Turn system move after)
    (attends : Attends system) (nothing : system.mark? topic move = none)
    (last : marks.getLast? = some (.set text time)) :
    ⟨time + ttl, .errorExpiry topic (Mark.lastToken marks), false⟩ ∈
        after.1.world.alarms.armed ∨
      time + ttl ≤ after.1.world.now ∧
        (after.1.isRunning = true →
          .wake (.errorExpiry topic (Mark.lastToken marks)) ∈ after.1.world.events) := by
  have later := turn.now_le
  rcases timely.outstanding text time last with armed | ⟨due, posted⟩
  · rcases turn.detached_or_rang rfl armed with armed | ⟨due, rang⟩
    · exact .inl armed
    · refine .inr ⟨Nat.le_trans due later, fun running => ?_⟩
      exact rang (attends.listens (turn.isRunning_of running))
  · refine .inr ⟨Nat.le_trans due later, fun running => ?_⟩
    rcases turn.posted_or_takes running (posted (turn.isRunning_of running)) with posted | taken
    · exact posted
    · -- the text on show would have gone
      have shown : system.client.board.expires topic (Mark.lastToken marks) = true :=
        timely.marked.expires_iff.mpr ⟨rfl, text, time, last⟩
      rw [mark?_of_takes taken, Client.mark?, if_pos shown, if_pos rfl] at nothing
      cases nothing

theorem Timely.turn (timely : Timely ttl topic marks system) (turn : Turn system move after)
    (attends : Attends system) (same : system.client.connection.settings.errorTtl = ttl) :
    Timely ttl topic (marks ++ (system.mark? topic move).toList) after.1 := by
  have later := turn.now_le
  refine ⟨turn.marked timely.marked, ?_, ?_, ?_⟩
  · intro alarm h token expiry
    rcases turn.of_armed_expiry h expiry with before | ⟨due, next, text, set⟩
    · obtain ⟨text, time, given, due⟩ := timely.armed alarm before token expiry
      exact ⟨text, time, Mark.given?_append given _, due⟩
    · refine ⟨text, system.world.now, ?_, due.trans (by rw [same])⟩
      rw [set, next, timely.marked.token_eq]
      exact Mark.given?_set marks text system.world.now
  · intro token h
    rcases turn.of_posted h with before | ⟨alarm, armed, expiry, due⟩
    · obtain ⟨text, time, given, past⟩ := timely.posted token before
      exact ⟨text, time, Mark.given?_append given _, Nat.le_trans past later⟩
    · obtain ⟨text, time, given, same⟩ := timely.armed alarm armed token expiry
      rw [same] at due
      exact ⟨text, time, Mark.given?_append given _, Nat.le_trans due later⟩
  · intro text time last
    cases made : system.mark? topic move with
    | none =>
      rw [made, Option.toList_none, List.append_nil] at last
      rw [Option.toList_none, List.append_nil]
      exact timely.kept turn attends made last
    | some mark =>
      rw [made, Option.toList_some, List.getLast?_concat] at last
      cases last
      rw [Option.toList_some, Mark.lastToken_set, ← same, ← timely.marked.token_eq]
      exact .inl (turn.arms_expiry made)

theorem timely_run (settings : Settings) (credential : Option String) (topic : Topic)
    (moves : List Move) :
    Timely settings.errorTtl topic ((start settings credential).marks topic moves)
      ((start settings credential).run moves).1 := by
  refine history_induction (P := fun history system =>
    Timely settings.errorTtl topic ((start settings credential).marks topic history) system)
    ?_ ?_ moves
  · exact timely_start settings credential topic
  · intro history move timely
    rw [System.marks, noted_concat]
    apply timely.turn (turn_step _ move) (attends_run settings credential history)
    rw [settings_run]

theorem isExclusive_run (settings : Settings) (credential : Option String) (moves : List Move) :
    ((start settings credential).run moves).1.client.board.IsExclusive := by
  refine run_induction (P := fun system => system.client.board.IsExclusive) ?_
    Turn.isExclusive moves
  intro combining
  cases combining

/-- An expiry that has its effect is that of the text on show, and comes in time. -/
theorem Timely.of_expired (timely : Timely ttl topic marks system)
    (expired : system.mark? topic move = some .expired) :
    ∃ text time, marks.getLast? = some (.set text time) ∧ time + ttl ≤ system.world.now := by
  obtain ⟨input, taken, made⟩ := Option.bind_eq_some_iff.mp expired
  obtain ⟨token, rfl, shown⟩ := Client.of_mark?_expired made
  obtain ⟨-, -, next⟩ := of_input?_event taken
  obtain ⟨rfl, text, time, last⟩ := timely.marked.expires_iff.mp shown
  have posted : .wake (.errorExpiry topic (Mark.lastToken marks)) ∈ system.world.events := by
    rw [next]
    exact List.mem_cons_self
  obtain ⟨other, past, given, due⟩ := timely.posted _ posted
  rw [Mark.given?_of_last last] at given
  cases given
  exact ⟨text, time, last, due⟩

/-- How the error text on a topic comes and goes, told by its marks so far. -/
structure KeepsTime (ttl : Nat) (topic : Topic) (marks : List Mark) (system : System) : Prop where
  /-- A text is on show exactly if the last mark sets it. -/
  text : ∀ text, (system.client.board.notice topic).text = some text ↔
    ∃ time, marks.getLast? = some (.set text time)
  /-- An expiry has an effect exactly if its token was given to the text on show, -/
  expires : ∀ token, system.client.board.expires topic token = true ↔
    ∃ text time, marks.getLast? = some (.set text time) ∧ token = Mark.lastToken marks
  /-- which it takes away. -/
  takes : ∀ token, system.client.board.expires topic token = true →
    system.client.board.expire topic token = system.client.board.setNotice topic ⟨none, token⟩
  /-- Any other expiry leaves everything as it is. -/
  leaves : ∀ token, system.client.board.expires topic token = false →
    system.client.board.expire topic token = system.client.board
  /-- A frame that brings a text has an expiry armed with the token of this text. -/
  arms : ∀ move text time, system.mark? topic move = some (.set text time) →
    time = system.world.now ∧
      ⟨time + ttl, .errorExpiry topic (Mark.lastToken (marks ++ [.set text time])), false⟩ ∈
        (system.step move).1.world.alarms.armed
  /-- Every expiry that is armed is that of a text, and armed for the time of this text. -/
  owed : ∀ alarm ∈ system.world.alarms.armed, ∀ token, alarm.wake = .errorExpiry topic token →
    ∃ text time, Mark.given? marks token = some (text, time) ∧ alarm.due = time + ttl
  /-- The expiry of the text on show is armed, outside of the scope, or rang in time. -/
  outstanding : ∀ text time, marks.getLast? = some (.set text time) →
    ⟨time + ttl, .errorExpiry topic (Mark.lastToken marks), false⟩ ∈
          system.world.alarms.armed ∧
        system.world.now ≤ time + ttl ∨
      time + ttl ≤ system.world.now ∧
        (system.isRunning = true →
          .wake (.errorExpiry topic (Mark.lastToken marks)) ∈ system.world.events)
  /-- A text does not stay beyond its time. -/
  gone : ∀ text time, marks.getLast? = some (.set text time) →
    system.isRunning = true → system.world.events = [] → system.world.now ≤ time + ttl
  /-- The loop does to the board what an expiry that it takes asks for. -/
  taken : ∀ move token, Takes (.event (.wake (.errorExpiry topic token))) system move →
    (system.step move).1.client.board = system.client.board.expire topic token
  /-- No text goes by an expiry before its time. -/
  early : ∀ move, system.mark? topic move = some .expired →
    ∃ text time, marks.getLast? = some (.set text time) ∧ time + ttl ≤ system.world.now

theorem Timely.keepsTime (timely : Timely ttl topic marks system)
    (punctual : ∀ alarm ∈ system.world.alarms.armed, system.world.now ≤ alarm.due)
    (same : system.client.connection.settings.errorTtl = ttl) :
    KeepsTime ttl topic marks system where
  text _ := timely.marked.text_eq_some_iff
  expires token := by
    rw [Board.expires, timely.marked.expires_iff]
    constructor
    · rintro ⟨last, text, time, set⟩
      exact ⟨text, time, set, last⟩
    · rintro ⟨text, time, set, last⟩
      exact ⟨last, text, time, set⟩
  takes token shown := by
    have last : token = (system.client.board.notice topic).token := by
      rw [timely.marked.token_eq]
      exact (timely.marked.expires_iff.mp shown).1
    rw [Board.expire, if_pos shown, Notice.clear, last]
  leaves _ late := Board.expire_of_not_expires late
  arms move text time set := by
    have armed := (turn_step system move).arms_expiry set
    obtain ⟨input, taken, made⟩ := Option.bind_eq_some_iff.mp set
    refine ⟨Client.time_of_mark? made, ?_⟩
    rw [Mark.lastToken_set, ← timely.marked.token_eq, ← same]
    exact armed
  owed := timely.armed
  outstanding text time last := by
    rcases timely.outstanding text time last with armed | rang
    · exact .inl ⟨armed, punctual _ armed⟩
    · exact .inr rang
  gone text time last running drained := by
    rcases timely.outstanding text time last with armed | ⟨-, posted⟩
    · exact punctual _ armed
    · have none := posted running
      rw [drained] at none
      cases none
  taken move _ taken := (turn_step system move).of_takes_expiry taken
  early _ := timely.of_expired

/-- **Error texts go in time, and not before.**  After every run, for both topics: a text is
    on show exactly when the last mark on its topic set it; an expiry takes the text away
    exactly when its token was given to the frame that set it; a frame that brings a text has
    the expiry with its token armed, for its time and out of a disconnect's reach, and while
    the text is on show it stays outstanding, so that the text goes when it should and not by
    the timer of an older one; and while components are being combined, no error of a
    combination is on show. -/
theorem errorTexts_keep_time (settings : Settings) (credential : Option String)
    (moves : List Move) :
    let system := start settings credential
    let reached := (system.run moves).1
    (∀ topic, KeepsTime settings.errorTtl topic (system.marks topic moves) reached) ∧
      (reached.client.board.isCombining = true →
        (reached.client.board.notice .combine).text = none) := by
  intro system reached
  refine ⟨fun topic => ?_, isExclusive_run settings credential moves⟩
  apply (timely_run settings credential topic moves).keepsTime
  · exact isPunctual_run settings credential moves
  · rw [settings_run]

/-- A text is replaced before its time, and its timer leaves the new one alone. -/
theorem replaced_text_keeps_time :
    let settings : Settings := ⟨"ws://localhost/ui", [], 3, 1, 100, 10⟩
    let first := "\x7b\"type\":\"component_save_error\",\"error\":\"full\"\x7d"
    let second := "\x7b\"type\":\"component_save_error\",\"error\":\"again\"\x7d"
    let moves : List Move :=
      [.submit .connect, .takeCommand, .world (.linkOpens 1 4), .takeEvent "session",
        .world (.linkReports 1 (.frame first)), .takeEvent "", .world (.wait 5),
        .world (.linkReports 1 (.frame second)), .takeEvent "", .world (.wait 5),
        .world (.ring 0), .takeEvent ""]
    let system := start settings (some "token")
    let reached := (system.run moves).1
    system.marks .save moves = [.set "full" 0, .set "again" 5] ∧
      (reached.client.board.notice .save).text = some "again" ∧
      reached.client.board.expires .save 1 = false ∧
      reached.client.board.expires .save 2 = true ∧
      ⟨15, .errorExpiry .save 2, false⟩ ∈ reached.world.alarms.armed := by
  intro settings first second moves system reached
  have marks : system.marks .save moves = [.set "full" 0, .set "again" 5] := by decide +kernel
  have keeps : KeepsTime 10 .save (system.marks .save moves) reached :=
    (errorTexts_keep_time settings (some "token") moves).1 .save
  have now : ¬15 ≤ reached.world.now := by decide +kernel
  rw [marks] at keeps
  clear_value reached
  refine ⟨marks, (keeps.text "again").mpr ⟨5, rfl⟩, ?_, ?_, ?_⟩
  · rw [← Bool.not_eq_true, keeps.expires]
    rintro ⟨text, time, last, given⟩
    cases given
  · exact (keeps.expires 2).mpr ⟨"again", 5, rfl, rfl⟩
  · rcases keeps.outstanding "again" 5 rfl with ⟨armed, -⟩ | ⟨late, -⟩
    · exact armed
    · exact absurd late now

end System
end Liveboard.Session
