/-
  Liveboard/Proofs/Board/LibraryMap.lean
  ======================================
  **The library as a map from ids to saved components.**

  The library is a list, newest first, in which an id may even stand twice; what a user
  finds under an id is the first entry with it.  Every operation does one thing to the list:
  it puts some entries in front and keeps some of those that were there, by their ids
  (`library_operate`).  So an entry that survives keeps its place among the others, and what
  is found under an id is what the last operation that concerns this id wrote there
  (`library_keeps_last_write`).
-/
import Liveboard.Proofs.Board.Conversation

namespace Liveboard

namespace Library

/-- What is found under an id. -/
def get? (library : Library) (id : String) : Option SavedComponent :=
  library.find? fun saved => saved.id == id

theorem get?_append (front library : Library) (id : String) :
    get? (front ++ library) id = (get? front id).or (library.get? id) :=
  List.find?_append

/-- Whether an entry is kept is decided by its id, so all with one id go together. -/
theorem get?_filter (library : Library) (keeps : String → Bool) (id : String) :
    get? (library.filter fun saved => keeps saved.id) id =
      if keeps id then library.get? id else none := by
  induction library with
  | nil => simp [get?]
  | cons saved library ih =>
    unfold get? at ih ⊢
    by_cases here : saved.id = id
    · cases kept : keeps id with
      | true => simp [here, kept]
      | false => simpa [here, kept] using ih
    · cases kept : keeps saved.id with
      | true => simpa [here, kept] using ih
      | false => simpa [here, kept] using ih

end Library

namespace Session.Board

/-! ### What one operation does to the library -/

namespace Operation

/-- The entries that an operation puts in front, in this order. -/
def front : Operation → Library
  | .frame (.savedList library) => library
  | .frame (.saved component) => [component]
  | .frame (.combined _ added) | .frame (.condensed _ added) => added
  | _ => []

/-- Whether the entries with an id survive an operation. -/
def keeps (id : String) : Operation → Bool
  | .frame (.savedList _) => false
  | .frame (.saved component) => id != component.id
  | .frame (.deleted componentId) => id != componentId
  | .frame (.combined removed _) | .frame (.condensed removed _) => !removed.contains id
  | _ => true

/-- What an operation writes under an id: an entry, or that there is none.  An operation that
    does not concern the id writes nothing. -/
def written? (id : String) : Operation → Option (Option SavedComponent)
  | .frame (.savedList library) => some (Library.get? library id)
  | .frame (.saved component) => if component.id = id then some (some component) else none
  | .frame (.deleted componentId) => if componentId = id then some none else none
  | .frame (.combined removed added) | .frame (.condensed removed added) =>
    match Library.get? added id with
    | some saved => some (some saved)
    | none => if id ∈ removed then some none else none
  | _ => none

end Operation

variable {board : Board}

/-- The library after an operation: what it puts in front, and what it keeps. -/
theorem library_operate (board : Board) (operation : Operation) :
    (board.operate operation).1.library =
      operation.front ++ board.library.filter fun saved => operation.keeps saved.id := by
  have untouched : board.library = [] ++ board.library.filter fun _ => true := by
    rw [List.nil_append, List.filter_eq_self.mpr fun _ _ => rfl]
  cases operation with
  | frame frame =>
    cases frame with
    | savedList library =>
      show library = library ++ board.library.filter fun _ => false
      rw [List.filter_eq_nil_iff.mpr (by simp), List.append_nil]
    | saved component => rfl
    | deleted componentId => rfl
    | combined removed added => rfl
    | condensed removed added => rfl
    | systemConfig agents => cases agents <;> exact untouched
    | agentRegistered agent =>
      simp only [operate, apply]
      split <;> exact untouched
    | _ => exact untouched
  | userMessage text => exact untouched
  | expiry topic token =>
    simp only [operate, expire]
    split
    · cases topic <;> exact untouched
    · exact untouched

/-- What an operation writes is what its front has, and else that the entry is gone. -/
theorem Operation.written?_eq (operation : Operation) (id : String) :
    operation.written? id =
      if operation.keeps id then (operation.front.get? id).map some
      else some (operation.front.get? id) := by
  cases operation with
  | frame frame =>
    cases frame with
    | savedList library => rfl
    | saved component =>
      by_cases same : component.id = id
      · simp [written?, keeps, front, Library.get?, same]
      · simp [written?, keeps, front, Library.get?, same, Ne.symm same]
    | deleted componentId =>
      by_cases same : componentId = id
      · simp [written?, keeps, front, Library.get?, same]
      · simp [written?, keeps, front, Library.get?, same, Ne.symm same]
    | combined removed added | condensed removed added =>
      simp only [written?, keeps, front]
      by_cases gone : id ∈ removed
      · cases Library.get? added id <;> simp [gone]
      · cases Library.get? added id <;> simp [gone]
    | _ => rfl
  | _ => rfl

theorem get?_operate (board : Board) (operation : Operation) (id : String) :
    (board.operate operation).1.library.get? id =
      (operation.written? id).getD (board.library.get? id) := by
  rw [library_operate, Library.get?_append,
    Library.get?_filter board.library (fun id => operation.keeps id), operation.written?_eq]
  cases operation.front.get? id <;> cases operation.keeps id <;> rfl

/-! ### Runs -/

/-- What the last of the operations that concern an id wrote there. -/
def lastWritten? (operations : List Operation) (id : String) : Option (Option SavedComponent) :=
  operations.reverse.findSome? (Operation.written? id)

theorem lastWritten?_cons (operation : Operation) (operations : List Operation) (id : String) :
    lastWritten? (operation :: operations) id =
      (lastWritten? operations id).or (operation.written? id) := by
  simp only [lastWritten?, List.reverse_cons, List.findSome?_append, List.findSome?_singleton]

theorem get?_operateAll (board : Board) (operations : List Operation) (id : String) :
    (board.operateAll operations).1.library.get? id =
      (lastWritten? operations id).getD (board.library.get? id) := by
  induction operations generalizing board with
  | nil => rfl
  | cons operation operations ih =>
    rw [operateAll_cons, ih, get?_operate, lastWritten?_cons]
    cases lastWritten? operations id <;> rfl

theorem library_operateAll (board : Board) (operations : List Operation) :
    ∃ front, (board.operateAll operations).1.library =
      front ++ board.library.filter fun saved => operations.all (Operation.keeps saved.id) := by
  induction operations generalizing board with
  | nil => exact ⟨[], (List.filter_eq_self.mpr fun _ _ => rfl).symm⟩
  | cons operation operations ih =>
    obtain ⟨front, later⟩ := ih (board.operate operation).1
    rw [operateAll_cons, later, library_operate, List.filter_append, List.filter_filter,
      ← List.append_assoc]
    refine ⟨_, congrArg _ (List.filter_congr fun saved _ => ?_)⟩
    rw [List.all_cons, Bool.and_comm]

/-- **The last write wins.**  After any operations on a board, what is found under an id is
    what the last of them that concerns this id wrote there, and what was there before if
    none does.  A list from the server concerns every id, a saved and a deleted component
    their own, and the result of a combination what it adds and what it removes, of which an
    id that is both counts as added; no other frame and nothing local concerns any.
    An operation puts what it adds in front, in the order given, and of the rest keeps all
    entries but those with the ids it takes out, as they stood; so after any number of
    operations the survivors still stand at the end, in their old order. -/
theorem library_keeps_last_write (board : Board) (operations : List Operation) :
    (∀ id, (board.operateAll operations).1.library.get? id =
      (lastWritten? operations id).getD (board.library.get? id)) ∧
    (∀ operation, ((board.operateAll operations).1.operate operation).1.library =
      operation.front ++
        (board.operateAll operations).1.library.filter fun saved => operation.keeps saved.id) ∧
    ∃ front, (board.operateAll operations).1.library =
      front ++ board.library.filter fun saved => operations.all (Operation.keeps saved.id) :=
  ⟨get?_operateAll board operations, library_operate _, library_operateAll board operations⟩

end Session.Board
end Liveboard
