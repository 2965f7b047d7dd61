/-
  Liveboard/Proofs/Board/DistinctIds.lean
  =======================================
  **When no two saved components share an id.**

  A list from the server, a saved and a deleted component keep the ids of the library
  distinct.  The result of a combination does so only if it takes out every entry whose
  id it brings back: a new component does not replace an entry that is still there.
  `nodup_ids_after_iff` is the exact condition for a whole run.
-/
import Liveboard.Session.Board

namespace Liveboard

namespace Library

def ids (library : Library) : List String := library.map (·.id)

theorem mem_ids {library : Library} {id : String} :
    id ∈ library.ids ↔ ∃ saved ∈ library, saved.id = id :=
  List.mem_map

theorem ids_sublist {part library : Library} (h : part.Sublist library) :
    part.ids.Sublist library.ids :=
  h.map _

theorem nodup_ids_remove {library : Library} (h : library.ids.Nodup) (id : String) :
    (library.remove id).ids.Nodup :=
  h.sublist (ids_sublist List.filter_sublist)

theorem nodup_ids_put {library : Library} (h : library.ids.Nodup) (saved : SavedComponent) :
    (library.put saved).ids.Nodup := by
  have others : saved.id ∉ (library.remove saved.id).ids := by
    intro again
    obtain ⟨other, kept, same⟩ := mem_ids.mp again
    exact (mem_remove.mp kept).2 same
  exact List.nodup_cons.mpr ⟨others, nodup_ids_remove h saved.id⟩

theorem nodup_ids_replace_iff {library added : Library} {removed : List String}
    (old : library.ids.Nodup) (new : added.ids.Nodup) :
    (library.replace removed added).ids.Nodup ↔
      ¬∃ saved ∈ library, saved.id ∈ added.ids ∧ saved.id ∉ removed := by
  -- what stays is what a result without new components would leave
  have stays : (library.replace removed []).ids.Nodup :=
    old.sublist (ids_sublist List.filter_sublist)
  have parts : (library.replace removed added).ids =
      added.ids ++ (library.replace removed []).ids := List.map_append
  rw [parts, List.nodup_append]
  constructor
  · rintro ⟨-, -, apart⟩ ⟨saved, stored, again, notRemoved⟩
    have still : saved.id ∈ (library.replace removed []).ids :=
      mem_ids.mpr ⟨saved, mem_replace.mpr (.inr ⟨stored, notRemoved⟩), rfl⟩
    exact apart saved.id again saved.id still rfl
  · intro none
    refine ⟨new, stays, ?_⟩
    intro id again other still same
    subst same
    obtain ⟨saved, kept, rfl⟩ := mem_ids.mp still
    rcases mem_replace.mp kept with added | ⟨stored, notRemoved⟩
    · cases added
    · exact none ⟨saved, stored, again, notRemoved⟩

end Library

/-- The saved components that a frame lists. -/
def Frame.listed : Frame → Library
  | .savedList library => library
  | .combined _ added | .condensed _ added => added
  | _ => []

namespace Session.Board

def after (board : Board) (frames : List Frame) : Board :=
  frames.foldl (fun board frame => (board.apply frame).1) board

/-- The frame brings an id back that it does not take out of the library. -/
def Collides (board : Board) : Frame → Prop
  | .combined removed added | .condensed removed added =>
    ∃ saved ∈ board.library, saved.id ∈ Library.ids added ∧ saved.id ∉ removed
  | _ => False

/-- One frame keeps the ids distinct exactly if it does not collide. -/
theorem nodup_ids_apply_iff {board : Board} {frame : Frame} (old : board.library.ids.Nodup)
    (new : frame.listed.ids.Nodup) :
    (board.apply frame).1.library.ids.Nodup ↔ ¬board.Collides frame := by
  cases frame with
  | combined removed added => exact Library.nodup_ids_replace_iff old new
  | condensed removed added => exact Library.nodup_ids_replace_iff old new
  | savedList library => exact iff_of_true new fun h => h
  | saved component => exact iff_of_true (Library.nodup_ids_put old component) fun h => h
  | deleted componentId => exact iff_of_true (Library.nodup_ids_remove old componentId) fun h => h
  | systemConfig agents => cases agents <;> exact iff_of_true old fun h => h
  | agentRegistered agent =>
    simp only [apply]
    split <;> exact iff_of_true old fun h => h
  | _ => exact iff_of_true old fun h => h

theorem nodup_ids_take_iff {board : Board} {frames : List Frame}
    (first : board.library.ids.Nodup) (listed : ∀ frame ∈ frames, frame.listed.ids.Nodup) :
    (∀ count, (board.after (frames.take count)).library.ids.Nodup) ↔
      ∀ earlier frame later, frames = earlier ++ frame :: later →
        ¬(board.after earlier).Collides frame := by
  induction frames generalizing board with
  | nil => simp [after, first]
  | cons frame frames ih =>
    have step := nodup_ids_apply_iff first (listed frame List.mem_cons_self)
    have rest : ∀ frame ∈ frames, frame.listed.ids.Nodup :=
      fun frame h => listed frame (List.mem_cons_of_mem _ h)
    constructor
    · intro distinct earlier other later parts
      have next : (board.apply frame).1.library.ids.Nodup := distinct 1
      cases earlier with
      | nil =>
        obtain ⟨rfl, -⟩ := List.cons.inj parts
        exact step.mp next
      | cons head earlier =>
        obtain ⟨rfl, tail⟩ := List.cons.inj parts
        exact (ih next rest).mp (fun count => distinct (count + 1)) earlier other later tail
    · intro apart count
      have next := step.mpr (apart [] frame frames rfl)
      cases count with
      | zero => exact first
      | succ count =>
        refine (ih next rest).mpr ?_ count
        intro earlier other later parts
        exact apart (frame :: earlier) other later (by rw [parts]; rfl)

/-- **Distinct ids.**  Over frames that each list distinct ids, the ids in the library are
    distinct at every moment exactly if no result of a combination collides with what the
    library holds when it arrives. -/
theorem nodup_ids_after_iff {frames : List Frame}
    (listed : ∀ frame ∈ frames, frame.listed.ids.Nodup) :
    (∀ count, (empty.after (frames.take count)).library.ids.Nodup) ↔
      ∀ earlier frame later, frames = earlier ++ frame :: later →
        ¬(empty.after earlier).Collides frame :=
  nodup_ids_take_iff List.nodup_nil listed

/-- The merged component as the server lists it. -/
def merged : SavedComponent :=
  ⟨"m", "c1", ⟨"metric", none, [], [], .children⟩, "metric", "Merged", none⟩

/-- A refresh that has the merged component, and then the result that brings it. -/
theorem not_nodup_ids_after_late_result :
    (∀ frame ∈ [Frame.savedList [merged], .combined ["a", "b"] [merged]],
      frame.listed.ids.Nodup) ∧
    ¬∀ count, (empty.after
      ([Frame.savedList [merged], .combined ["a", "b"] [merged]].take count)).library.ids.Nodup := by
  have listed : ∀ frame ∈ [Frame.savedList [merged], .combined ["a", "b"] [merged]],
      frame.listed.ids.Nodup := by
    intro frame h
    simp only [List.mem_cons, List.not_mem_nil, or_false] at h
    rcases h with rfl | rfl <;> decide
  refine ⟨listed, fun distinct => ?_⟩
  have collides : (empty.after [.savedList [merged]]).Collides (.combined ["a", "b"] [merged]) :=
    ⟨merged, List.mem_singleton.mpr rfl, by decide, by decide⟩
  exact (nodup_ids_after_iff listed).mp distinct [.savedList [merged]] _ [] rfl collides

end Session.Board
end Liveboard
