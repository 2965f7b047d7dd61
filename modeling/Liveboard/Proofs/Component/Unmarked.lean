/-
  Liveboard/Proofs/Component/Unmarked.lean
  ========================================
  **What depends on the slot of a component: nothing but its wire form.**

  A component remembers under which key its children stood.  Trees that differ in that alone
  have the same known part, the same entries, as many components and the same outline, again
  up to slots (`alike_of_unmarkedAll_eq`).
-/
import Liveboard.Component.Forest
import Liveboard.Component.Outline
import Liveboard.Proofs.Component.Extraction

namespace Liveboard

namespace Component

mutual
/-- The same tree with every slot set to `children`. -/
def unmarked : Component → Component
  | ⟨kind, id, attributes, children, _⟩ =>
    ⟨kind, id, attributes, unmarkedAll children, .children⟩
termination_by structural component => component

def unmarkedAll : List Component → List Component
  | [] => []
  | component :: forest => unmarked component :: unmarkedAll forest
termination_by structural forest => forest
end

theorem unmarked_eq (component : Component) : component.unmarked =
    ⟨component.kind, component.id, component.attributes, unmarkedAll component.children,
      .children⟩ := by
  cases component
  rfl

end Component

/-- The same entry with every slot of its component set to `children`. -/
def Savable.unmarked (entry : Savable) : Savable :=
  { entry with component := entry.component.unmarked }

namespace Component

/-! ### The known part -/

mutual
theorem retainKnown_unmarked : ∀ component : Component,
    component.unmarked.retainKnown = component.retainKnown.unmarked
  | ⟨kind, id, attributes, children, slot⟩ => by
    rw [unmarked, retainKnown, retainKnown, unmarked, keepKnown_unmarkedAll children]
termination_by structural component => component

theorem keepKnown_unmarkedAll : ∀ forest : List Component,
    keepKnown (unmarkedAll forest) = unmarkedAll (keepKnown forest)
  | [] => rfl
  | component :: forest => by
    have known : component.unmarked.isKnown = component.isKnown := by
      rw [unmarked_eq]
      rfl
    rw [unmarkedAll, keepKnown, keepKnown, known, retainKnown_unmarked component,
      keepKnown_unmarkedAll forest]
    split
    · rw [unmarkedAll]
    · rfl
termination_by structural forest => forest
end

/-! ### Entries -/

theorem unmarked_entry (component : Component) (handed? : Option String) :
    component.unmarked.entry handed? = (component.entry handed?).unmarked := by
  have title : component.unmarked.displayTitle? = component.displayTitle? := by
    rw [unmarked_eq]
    rfl
  have kind : component.unmarked.kind = component.kind := by
    rw [unmarked_eq]
  unfold entry
  rw [title, kind]
  cases component.displayTitle? <;> cases handed? <;> rfl

theorem handDown_unmarked (component : Component) (entry : Savable) :
    component.unmarked.handDown entry.unmarked = (component.handDown entry).unmarked := by
  have title : component.unmarked.groupTitle? = component.groupTitle? := by
    rw [unmarked_eq]
    rfl
  unfold handDown
  rw [title]
  cases component.groupTitle? with
  | none => rfl
  | some title =>
    have distinct : entry.unmarked.hasDistinctTitle = entry.hasDistinctTitle := rfl
    simp only [Savable.inherit, distinct]
    by_cases own : entry.hasDistinctTitle = true
    · rw [if_pos own, if_pos own]
    · rw [if_neg own, if_neg own]
      rfl

theorem collect_unmarked (component : Component) (nested : List Savable) :
    component.unmarked.collect (nested.map Savable.unmarked) =
      (component.collect nested).map Savable.unmarked := by
  have savable : component.unmarked.isSavable = component.isSavable := by
    rw [unmarked_eq]
    rfl
  have groups : component.unmarked.isContainer = component.isContainer := by
    rw [unmarked_eq]
    rfl
  have handed : (nested.map Savable.unmarked).map component.unmarked.handDown =
      (nested.map component.handDown).map Savable.unmarked := by
    rw [List.map_map, List.map_map]
    exact List.map_congr_left fun entry _ => handDown_unmarked component entry
  rw [collect_eq, collect_eq, savable, groups, List.isEmpty_map, handed, List.map_append]
  split
  · rw [List.map_singleton, unmarked_entry]
  · rfl

mutual
theorem savables_unmarked : ∀ component : Component,
    component.unmarked.savables = component.savables.map Savable.unmarked
  | ⟨kind, id, attributes, children, slot⟩ => by
    rw [savables, ← collect_unmarked, ← savablesOfAll_unmarkedAll children]
    rfl
termination_by structural component => component

theorem savablesOfAll_unmarkedAll : ∀ forest : List Component,
    savablesOfAll (unmarkedAll forest) = (savablesOfAll forest).map Savable.unmarked
  | [] => rfl
  | component :: forest => by
    rw [unmarkedAll, savablesOfAll, savablesOfAll, List.map_append, savables_unmarked component,
      savablesOfAll_unmarkedAll forest]
termination_by structural forest => forest
end

/-! ### Size and outline -/

mutual
theorem count_unmarked : ∀ component : Component, component.unmarked.count = component.count
  | ⟨_, _, _, children, _⟩ => by
    rw [unmarked, count, count, countAll_unmarkedAll children]
termination_by structural component => component

theorem countAll_unmarkedAll : ∀ forest : List Component,
    countAll (unmarkedAll forest) = countAll forest
  | [] => rfl
  | component :: forest => by
    rw [unmarkedAll, countAll, countAll, count_unmarked component, countAll_unmarkedAll forest]
termination_by structural forest => forest
end

mutual
theorem outlineLines_unmarked (depth : Nat) : ∀ component : Component,
    outlineLines depth component.unmarked = outlineLines depth component
  | ⟨_, _, _, children, _⟩ => by
    rw [unmarked, outlineLines, outlineLines, outlineLinesOfAll_unmarkedAll (depth + 1) children]
    rfl
termination_by structural component => component

theorem outlineLinesOfAll_unmarkedAll (depth : Nat) : ∀ forest : List Component,
    outlineLinesOfAll depth (unmarkedAll forest) = outlineLinesOfAll depth forest
  | [] => rfl
  | component :: forest => by
    rw [unmarkedAll, outlineLinesOfAll, outlineLinesOfAll, outlineLines_unmarked depth component,
      outlineLinesOfAll_unmarkedAll depth forest]
termination_by structural forest => forest
end

end Component

namespace Forest

open Component

/-- Two forests that are the same up to slots, and so is what is made of them. -/
structure Alike (forest other : Forest) : Prop where
  components : unmarkedAll forest = unmarkedAll other
  known : unmarkedAll (keepKnown forest) = unmarkedAll (keepKnown other)
  savables : forest.savables.map Savable.unmarked = other.savables.map Savable.unmarked
  count : forest.count = other.count
  outline : forest.outline = other.outline

theorem alike_of_unmarkedAll_eq {forest other : Forest}
    (same : unmarkedAll forest = unmarkedAll other) : Alike forest other := by
  refine ⟨same, ?_, ?_, ?_, ?_⟩
  · rw [← keepKnown_unmarkedAll, ← keepKnown_unmarkedAll, same]
  · rw [Forest.savables, Forest.savables, ← savablesOfAll_unmarkedAll,
      ← savablesOfAll_unmarkedAll, same]
  · rw [Forest.count, Forest.count, ← countAll_unmarkedAll, ← countAll_unmarkedAll other, same]
  · rw [Forest.outline, Forest.outline, ← outlineLinesOfAll_unmarkedAll,
      ← outlineLinesOfAll_unmarkedAll 1 other, same]

end Forest
end Liveboard
