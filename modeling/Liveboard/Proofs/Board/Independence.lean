/-
  Liveboard/Proofs/Board/Independence.lean
  ========================================
  **Which operations on a board may change places.**

  The fields of a board fall into areas, and an operation concerns one of them: it changes
  no other (`operate_eq_graft`), and what it does and returns does not depend on any other
  (`operate_graft`).  So operations on different areas may change places.  In the library
  a deletion may change places with whatever does not add a component under the same id,
  and with nothing else (`commutes_deleted_iff`).
-/
import Liveboard.Proofs.Board.LibraryMap

namespace Liveboard.Session.Board

/-! ### Areas of a board -/

inductive Area where
  /-- The agents. -/
  | roster
  /-- What the active chat is doing. -/
  | activity
  /-- The active chat, its messages and the live buffer. -/
  | conversation
  /-- The list of chats. -/
  | history
  /-- The saved components, their combination, and both error texts. -/
  | library
  /-- Nothing at all. -/
  | nowhere
deriving DecidableEq

def Operation.area : Operation → Area
  | .frame (.systemConfig _) | .frame (.agentRegistered _) | .frame (.agentList _) => .roster
  | .frame (.chatStatus _ _) => .activity
  | .frame (.render _) | .frame (.update _) | .frame (.append _) | .frame (.chatCreated _)
  | .frame (.chatLoaded _ _) | .userMessage _ => .conversation
  | .frame (.historyList _) => .history
  | .frame (.savedList _) | .frame (.saved _) | .frame (.deleted _) | .frame (.saveError _)
  | .frame (.combineStatus _) | .frame (.combined _ _) | .frame (.condensed _ _)
  | .frame (.combineError _) | .expiry _ _ => .library
  | .frame (.unknown _) => .nowhere

/-- The board with one area taken from another board. -/
def graft (source board : Board) : Area → Board
  | .roster => { board with agents := source.agents }
  | .activity =>
    { board with activity := source.activity, activityMessage := source.activityMessage }
  | .conversation =>
    { board with
      activeChat := source.activeChat, messages := source.messages, live := source.live }
  | .history => { board with chats := source.chats }
  | .library =>
    { board with
      library := source.library, isCombining := source.isCombining
      combineError := source.combineError, saveError := source.saveError }
  | .nowhere => board

theorem graft_comm {area other : Area} (apart : area ≠ other) (source foreign board : Board) :
    graft source (graft foreign board other) area =
      graft foreign (graft source board area) other := by
  cases area <;> cases other <;> first | rfl | exact absurd rfl apart

/-! ### Operations and areas -/

/-- What an operation returns: the effects of a frame, or whether an expiry took a text
    away. -/
inductive Outcome where
  | effects (effects : List Effect)
  | nothing
  | expired (yes : Bool)

def outcome (board : Board) : Operation → Outcome
  | .frame frame => .effects (board.apply frame).2
  | .userMessage _ => .nothing
  | .expiry topic token => .expired (board.expires topic token)

/-- An agent joins the roster unless one of its id is there. -/
theorem apply_agentRegistered (board : Board) (agent : Agent) :
    board.apply (.agentRegistered agent) =
      ({ board with
          agents :=
            if board.agents.any fun known => known.id == agent.id then board.agents
            else board.agents ++ [agent] }, []) := by
  simp only [apply]
  split <;> rfl

theorem expire_eq_setNotice (board : Board) (topic : Topic) (token : Nat) :
    board.expire topic token =
      board.setNotice topic
        (if board.expires topic token then (board.notice topic).clear else board.notice topic) := by
  unfold expire
  split
  · rfl
  · cases topic <;> rfl

/-- An operation changes its own area alone. -/
theorem operate_eq_graft (board : Board) (operation : Operation) :
    (board.operate operation).1 = graft (board.operate operation).1 board operation.area := by
  cases operation with
  | frame frame =>
    cases frame with
    | systemConfig agents => cases agents <;> rfl
    | agentRegistered agent =>
      simp only [operate, apply_agentRegistered]
      rfl
    | _ => rfl
  | userMessage text => rfl
  | expiry topic token =>
    simp only [operate, expire_eq_setNotice]
    cases topic <;> rfl

/-- What an operation does, and what it returns, does not depend on another area. -/
theorem operate_graft {operation : Operation} {area : Area} (foreign : operation.area ≠ area)
    (source board : Board) :
    ((graft source board area).operate operation).1 =
        graft source (board.operate operation).1 area ∧
      (graft source board area).outcome operation = board.outcome operation := by
  cases operation with
  | frame frame =>
    cases frame with
    | systemConfig agents =>
      cases agents <;> cases area <;> first | exact ⟨rfl, rfl⟩ | exact absurd rfl foreign
    | agentRegistered agent =>
      simp only [operate, outcome, apply_agentRegistered]
      cases area <;> first | exact ⟨rfl, trivial⟩ | exact absurd rfl foreign
    | _ => cases area <;> first | exact ⟨rfl, rfl⟩ | exact absurd rfl foreign
  | userMessage text => cases area <;> first | exact ⟨rfl, rfl⟩ | exact absurd rfl foreign
  | expiry topic token =>
    simp only [operate, outcome, expire_eq_setNotice]
    cases area <;> cases topic <;> first | exact ⟨rfl, rfl⟩ | exact absurd rfl foreign

/-! ### Changing places -/

/-- On this board the two operations may change places: in either order they leave the same
    board, and each returns the same. -/
structure Commutes (board : Board) (first second : Operation) : Prop where
  boards : ((board.operate first).1.operate second).1 = ((board.operate second).1.operate first).1
  outcomes : (board.operate second).1.outcome first = board.outcome first ∧
    (board.operate first).1.outcome second = board.outcome second

theorem commutes_of_area_ne {first second : Operation} (apart : first.area ≠ second.area)
    (board : Board) : Commutes board first second := by
  have onFirst := operate_graft apart (board.operate second).1 board
  have onSecond := operate_graft apart.symm (board.operate first).1 board
  rw [← operate_eq_graft] at onFirst onSecond
  refine ⟨?_, onFirst.2, onSecond.2⟩
  calc ((board.operate first).1.operate second).1
      = graft (board.operate first).1 (board.operate second).1 first.area := onSecond.1
    _ = graft (board.operate first).1 (graft (board.operate second).1 board second.area)
          first.area := by rw [← operate_eq_graft]
    _ = graft (board.operate second).1 (graft (board.operate first).1 board first.area)
          second.area := graft_comm apart _ _ _
    _ = graft (board.operate second).1 (board.operate first).1 second.area := by
          rw [← operate_eq_graft]
    _ = ((board.operate second).1.operate first).1 := onFirst.1.symm

/-! ### Deletions -/

/-- Nothing but the library that an operation leaves depends on the one it finds. -/
theorem operate_withLibrary (board : Board) (library : Library) (operation : Operation) :
    (({ board with library := library } : Board).operate operation).1 =
        { (board.operate operation).1 with
          library := operation.front ++ library.filter fun saved => operation.keeps saved.id } ∧
      ({ board with library := library } : Board).outcome operation =
        board.outcome operation := by
  have left := library_operate { board with library := library } operation
  have rest : (({ board with library := library } : Board).operate operation).1 =
        { (board.operate operation).1 with
          library := (({ board with library := library } : Board).operate operation).1.library } ∧
      ({ board with library := library } : Board).outcome operation =
        board.outcome operation := by
    cases operation with
    | frame frame =>
      cases frame with
      | systemConfig agents => cases agents <;> exact ⟨rfl, rfl⟩
      | agentRegistered agent =>
        constructor <;> simp only [operate, outcome, apply_agentRegistered]
      | _ => exact ⟨rfl, rfl⟩
    | userMessage text => exact ⟨rfl, rfl⟩
    | expiry topic token =>
      simp only [operate, outcome, expire_eq_setNotice]
      cases topic <;> exact ⟨rfl, rfl⟩
  rw [left] at rest
  exact rest

/-- A deletion may change places with exactly those operations that add no component under
    its id. -/
theorem commutes_deleted_iff (board : Board) (id : String) (operation : Operation) :
    Commutes board (.frame (.deleted id)) operation ↔
      ∀ saved ∈ operation.front, saved.id ≠ id := by
  have last := operate_withLibrary board (board.library.remove id) operation
  have swap : (board.library.remove id).filter (fun saved => operation.keeps saved.id) =
      Library.remove (board.library.filter fun saved => operation.keeps saved.id) id := by
    rw [Library.remove, Library.remove, List.filter_filter, List.filter_filter]
    exact List.filter_congr fun saved _ => Bool.and_comm _ _
  -- both orders leave the same library behind what the operation adds
  have added : ((board.operate (.frame (.deleted id))).1.operate operation).1 =
        ((board.operate operation).1.operate (.frame (.deleted id))).1 ↔
      Library.remove operation.front id = operation.front := by
    show (({ board with library := board.library.remove id } : Board).operate operation).1 =
        { (board.operate operation).1 with
          library := (board.operate operation).1.library.remove id } ↔ _
    rw [last.1, library_operate, swap]
    simp only [Library.remove, List.filter_append, Board.mk.injEq, true_and, and_true,
      List.append_cancel_right_eq]
    exact eq_comm
  have unnamed : Library.remove operation.front id = operation.front ↔
      ∀ saved ∈ operation.front, saved.id ≠ id := by
    rw [Library.remove, List.filter_eq_self]
    simp only [bne_iff_ne]
  constructor
  · intro commutes
    exact unnamed.mp (added.mp commutes.boards)
  · intro apart
    exact ⟨added.mpr (unnamed.mpr apart), rfl, last.2⟩

/-- **Independent operations may change places.**  On every board, operations that concern
    different areas leave the same board in either order, and each returns the same effects,
    or the same answer, whichever comes first.  A deletion may change places with every
    operation, also on the library, that adds no component under the same id; with an
    operation that does, it may not. -/
theorem independent_operations_commute (board : Board) (first second : Operation) :
    (first.area ≠ second.area → Commutes board first second) ∧
      ∀ id, Commutes board (.frame (.deleted id)) second ↔
        ∀ saved ∈ second.front, saved.id ≠ id :=
  ⟨fun apart => commutes_of_area_ne apart board, fun id => commutes_deleted_iff board id second⟩

/-- A component that is saved changes places with a rendering of the chat, and with a deletion
    unless it is the one deleted. -/
theorem saved_changes_places :
    let saved : Operation := .frame (.saved ⟨"a", "chat", .ofKind "card", "card", "", none⟩)
    Commutes .empty (.frame (.render [])) saved ∧
      Commutes .empty (.frame (.deleted "b")) saved ∧
      ¬ Commutes .empty (.frame (.deleted "a")) saved := by
  intro saved
  have shown := (independent_operations_commute .empty (.frame (.render [])) saved).1
  have deleted := (independent_operations_commute .empty (.frame (.deleted "b")) saved).2
  refine ⟨shown (by decide), (deleted "b").mpr ?_, fun commutes => ?_⟩
  · simp [saved, Operation.front]
  · exact (deleted "a").mp commutes _ (List.mem_singleton_self _) rfl

end Liveboard.Session.Board
