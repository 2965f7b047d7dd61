/-
  Liveboard/Proofs/Session/Visibility.lean
  ========================================
  **What the caller of a save can see when its answer comes.**

  A frame that answers a save does two things: it changes the board, and it settles the save.
  The loop settles first and publishes the board right after (`Turn.records_of_answer`).  So
  a caller that reads the published board at once finds the outcome there only if the board
  showed it already; `settled_after_shown_iff` says so for every run.
-/
import Liveboard.Proofs.Session.Publishing
import Liveboard.Proofs.Session.SaveFrames

namespace Liveboard.Session

/-- The board shows what became of a save: the component stands first in the library, or the
    reason of the refusal is the error text.  Failures that the server has no part in are not
    shown. -/
def Board.Shows (board : Board) : Except Failure SavedComponent → Prop
  | .ok component => board.library.head? = some component
  | .error (.rejected reason) => board.saveError.text = some reason
  | .error _ => True

theorem Board.shows_of_not_isAnswer {result : Except Failure SavedComponent}
    (own : isAnswer result = false) (board : Board) : board.Shows result := by
  cases result with
  | ok component => cases own
  | error failure =>
    cases failure with
    | rejected reason => cases own
    | _ => trivial

/-- A frame that brings an answer leaves a board that shows it. -/
theorem Board.shows_apply {frame : Frame} {result : Except Failure SavedComponent}
    (brings : Frame.answer? frame = some result) (board : Board) :
    (board.apply frame).1.Shows result := by
  cases frame with
  | saved component => cases brings; rfl
  | saveError reason => cases brings; rfl
  | _ => cases brings

theorem Board.isAnswer_of_brings {frame : Frame} {result : Except Failure SavedComponent}
    (brings : Frame.answer? frame = some result) : isAnswer result = true := by
  cases frame with
  | saved component | saveError reason => cases brings; rfl
  | _ => cases brings

theorem Board.not_shows_empty {result : Except Failure SavedComponent}
    (answer : isAnswer result = true) : ¬ Board.empty.Shows result := by
  cases result with
  | ok component => exact fun first => nomatch first
  | error failure =>
    cases failure with
    | rejected reason => exact fun text => nomatch text
    | _ => cases answer

/-- While the frame is handled, the save is settled and then the board is published. -/
theorem Client.records_of_answer {client : Client} {text : String} {frame : Frame}
    {result : Except Failure SavedComponent} (parsed : Frame.parse text = .ok frame)
    (brings : Frame.answer? frame = some result) (world : World) :
    (world.performAll (client.dispatch text).2).2 =
      client.saves.current.toList.map (fun entry => Record.settled entry.2 result) ++
        [.published (client.board.apply frame).1] := by
  simp only [dispatch, parsed]
  cases frame with
  | saved component =>
    cases brings
    cases current : client.saves.current <;>
      simp [Board.apply, performAll, perform, settlements, Confirmations.resolve,
        Confirmations.settle, current, World.performAll, World.perform]
  | saveError reason =>
    cases brings
    cases current : client.saves.current <;>
      simp [Board.apply, performAll, perform, settlements, Confirmations.reject,
        Confirmations.settle, current, World.performAll, World.perform]
  | _ => cases brings

namespace System

variable {system : System} {move : Move} {after : System × List Record}
  {result : Except Failure SavedComponent}

/-- An answer is taken that settles a save, and the board does not show it yet. -/
def Overtakes (system : System) (move : Move) : Prop :=
  ∃ input frame result, Takes input system move ∧ system.client.reads? input = some frame ∧
    Frame.answer? frame = some result ∧ system.client.saves.isOccupied = true ∧
    ¬ system.client.board.Shows result

/-! ### One turn -/

theorem Turn.records_of_answer (turn : Turn system move after) {input : Input} {frame : Frame}
    (taken : Takes input system move) (read : system.client.reads? input = some frame)
    (brings : Frame.answer? frame = some result) :
    after.2 =
      system.client.saves.current.toList.map (fun entry => Record.settled entry.2 result) ++
        [.published (system.client.board.apply frame).1] := by
  have goesOn : input ≠ .command .shutdown := by
    rintro rfl
    cases read
  obtain ⟨sessionId, rfl⟩ := turn.of_takes taken goesOn
  obtain ⟨text, parsed, same⟩ := Client.handle_of_reads read
  rw [records_carryOut, same]
  exact Client.records_of_answer parsed brings _

/-- A save that is settled by an answer is settled by the first record of a turn, and the
    board that shows the answer is published by the second and last one. -/
theorem Turn.of_settled (turn : Turn system move after) {prior rest : List Record}
    {ticket : Ticket} (answer : isAnswer result = true)
    (settled : after.2 = prior ++ .settled ticket result :: rest) :
    prior = [] ∧ system.client.saves.isOccupied = true ∧
      ∃ input frame, Takes input system move ∧ system.client.reads? input = some frame ∧
        Frame.answer? frame = some result ∧
        rest = [.published (system.client.board.apply frame).1] := by
  have told : result ∈ after.2.filterMap Record.saveAnswer? := by
    refine List.mem_filterMap.mpr ⟨.settled ticket result, ?_, by simp [Record.saveAnswer?, answer]⟩
    rw [settled]
    exact List.mem_append_right _ List.mem_cons_self
  obtain ⟨input, frame, taken, read, brings⟩ := turn.answers told
  have made := turn.records_of_answer taken read brings
  rw [settled] at made
  have tail := congrArg List.length made
  cases current : system.client.saves.current with
  | none =>
    rw [current] at made
    rcases prior with _ | ⟨first, prior⟩
    · cases made
    · simp [current] at tail
  | some entry =>
    rw [current] at made
    rcases prior with _ | ⟨first, prior⟩
    · obtain ⟨-, rfl⟩ := List.cons.inj made
      exact ⟨rfl, by rw [Confirmations.isOccupied, current]; rfl,
        input, frame, taken, read, brings, rfl⟩
    · -- the only other record is no settlement
      obtain ⟨-, made⟩ := List.cons.inj made
      rcases prior with _ | ⟨second, prior⟩
      · cases made
      · simp [current] at tail

/-! ### Runs -/

/-- **A save is settled before its outcome is shown.**  When the server's answer settles a
    save, the board that shows the answer is published right after that, never before.  So in
    a run every caller that is given an answer finds it on the board last published exactly
    if no answer ever overtakes the board, that is, if the loop never takes an answer to an
    open save that the board does not show yet. -/
theorem settled_after_shown_iff (settings : Settings) (credential : Option String)
    (moves : List Move) :
    ((∀ earlier ticket result later,
        ((start settings credential).run moves).2 = earlier ++ .settled ticket result :: later →
          (shown earlier).Shows result) ↔
      ¬ Sometime Overtakes (start settings credential) moves) ∧
    ∀ earlier ticket result later,
      ((start settings credential).run moves).2 = earlier ++ .settled ticket result :: later →
        isAnswer result = true →
          ∃ board rest, later = .published board :: rest ∧ board.Shows result := by
  have current (history : List Move) : shown ((start settings credential).run history).2 =
      ((start settings credential).run history).1.client.board := by
    rw [shown_run, published_run]
  refine ⟨⟨?_, ?_⟩, ?_⟩
  · intro seen sometime
    obtain ⟨before, move, after, rfl, input, frame, result, taken, read, brings, occupied, unseen⟩ :=
      sometime_iff_exists.mp sometime
    obtain ⟨entry, holds⟩ := Option.isSome_iff_exists.mp occupied
    have parts : ((start settings credential).run (before ++ move :: after)).2 =
        ((start settings credential).run before).2 ++
          ((((start settings credential).run before).1.step move).2 ++
            ((((start settings credential).run before).1.step move).1.run after).2) := by
      rw [run_append]
      rfl
    rw [(turn_step _ move).records_of_answer taken read brings, holds] at parts
    rw [← current before] at unseen
    exact unseen (seen _ entry.2 result _ parts)
  · intro never earlier ticket result later made
    cases answer : isAnswer result with
    | false => exact Board.shows_of_not_isAnswer answer _
    | true =>
      obtain ⟨before, move, after, prior, rest, rfl, stepped, rfl, rfl⟩ :=
        exists_move_of_record made
      obtain ⟨rfl, occupied, input, frame, taken, read, brings, -⟩ :=
        (turn_step _ move).of_settled answer stepped
      rw [List.append_nil, current]
      refine Classical.byContradiction fun unseen => never (sometime_iff_exists.mpr ?_)
      exact ⟨before, move, after, rfl, input, frame, result, taken, read, brings, occupied, unseen⟩
  · intro earlier ticket result later made answer
    obtain ⟨before, move, after, prior, rest, rfl, stepped, rfl, rfl⟩ := exists_move_of_record made
    obtain ⟨-, -, -, frame, -, -, brings, rfl⟩ := (turn_step _ move).of_settled answer stepped
    exact ⟨_, _, rfl, Board.shows_apply brings _⟩

/-- A component is stored, or refused: the caller is answered before the board shows it. -/
theorem answers_overtake_board :
    let settings : Settings := ⟨"ws://localhost/ui", ["render"], 3, 1, 10, 5⟩
    let stored : SavedComponent := ⟨"a", "chat", .ofKind "card", "card", "", none⟩
    let moves (frame : Json) : List Move :=
      [.submit .connect, .takeCommand, .world (.linkOpens 1 8), .takeEvent "session",
        .submit (.save (.save none stored.component "card" "")), .takeCommand,
        .world (.linkReports 1 (.frame frame.compact)), .takeEvent ""]
    let answers : List Json :=
      [.obj [("type", .str "component_saved"), ("component", stored.wire)],
        .obj [("type", .str "component_save_error"), ("error", .str "full")]]
    ∀ frame ∈ answers,
      ∃ earlier ticket result later,
        ((start settings (some "token")).run (moves frame)).2 =
          earlier ++ .settled ticket result :: later ∧
        ¬ (shown earlier).Shows result := by
  intro settings stored moves answers frame listed
  have answering : ∀ frame ∈ answers,
      ((Frame.parse frame.compact).toOption.bind Frame.answer?).isSome = true := by
    decide +kernel
  obtain ⟨result, brings⟩ := Option.isSome_iff_exists.mp (answering frame listed)
  obtain ⟨read, parsed, brings⟩ := Option.bind_eq_some_iff.mp brings
  have overtakes : Sometime Overtakes (start settings (some "token")) (moves frame) := by
    refine sometime_iff_exists.mpr ⟨(moves frame).dropLast, .takeEvent "", [], rfl, ?_⟩
    exact ⟨.event (.link 1 (.reported (.frame frame.compact))), read, result, rfl, parsed, brings,
      rfl, Board.not_shows_empty (Board.isAnswer_of_brings brings)⟩
  have missed := mt (settled_after_shown_iff settings (some "token") (moves frame)).1.mp
    (not_not_intro overtakes)
  refine Classical.byContradiction fun none => missed fun earlier ticket result later made => ?_
  exact Classical.byContradiction fun unseen => none ⟨earlier, ticket, result, later, made, unseen⟩

end System
end Liveboard.Session
