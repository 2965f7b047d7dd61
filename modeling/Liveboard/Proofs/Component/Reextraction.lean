/-
  Liveboard/Proofs/Component/Reextraction.lean
  ============================================
  **Saving what was saved.**

  A component that was kept is kept again when it is saved by itself, and comes first: what
  follows is what its children yield (`savables_of_isKept`).  Nothing follows a container, as
  there is nothing savable below one that is kept.  So saving again adds nothing exactly if no
  other kept component has something savable below it (`typed_savablesOfAll_eq_iff`).
-/
import Liveboard.Proofs.Component.Titles

namespace Liveboard

namespace Component

variable {component : Component} {kept : List Component}

/-! ### Saving one component again -/

/-- A title of its own is not affected by what is handed down. -/
theorem entry_eq_of_own {handed? : Option String}
    (own : (component.entry handed?).source = .own) :
    component.entry none = component.entry handed? := by
  unfold entry at own ⊢
  cases titled : component.displayTitle? with
  | some title => rfl
  | none =>
    rw [titled] at own
    cases handed? <;> cases own

theorem savablesOfAll_children_eq_nil_iff :
    savablesOfAll component.children = [] ↔ component.descendants.any isSavable = false := by
  rw [← List.isEmpty_iff, isEmpty_savablesOfAll, Bool.not_eq_true', descendants]

/-- A kept component comes first when it is saved again. -/
theorem savables_of_isKept (kept : component.isKept = true) :
    component.savables =
      component.entry none :: (savablesOfAll component.children).map component.handDown := by
  rw [savables_eq_handDown, if_pos kept]
  rfl

theorem typed_savables_of_isKept (kept : component.isKept = true) :
    typed component.savables =
      (component, component.kind) :: typed (savablesOfAll component.children) := by
  have handed := typed_map_handDown component (savablesOfAll component.children)
  rw [← handed, savables_of_isKept kept]
  exact congrArg (· ++ _) (typed_entry component none)

/-! ### Saving all of them again -/

theorem length_le_length_savablesOfAll (all : ∀ component ∈ kept, component.isKept = true) :
    kept.length ≤ (savablesOfAll kept).length := by
  induction kept with
  | nil => exact Nat.zero_le _
  | cons component others ih =>
    obtain ⟨first, later⟩ := List.forall_mem_cons.mp all
    have ih := ih later
    rw [savablesOfAll, savables_of_isKept first, List.length_append, List.length_cons,
      List.length_cons]
    omega

/-- Kept components yield themselves alone exactly if nothing below them is yielded. -/
theorem typed_savablesOfAll_eq_iff (all : ∀ component ∈ kept, component.isKept = true) :
    typed (savablesOfAll kept) = kept.map (fun component => (component, component.kind)) ↔
      ∀ component ∈ kept, savablesOfAll component.children = [] := by
  induction kept with
  | nil =>
    refine ⟨fun _ component mem => ?_, fun _ => rfl⟩
    cases mem
  | cons component others ih =>
    obtain ⟨first, later⟩ := List.forall_mem_cons.mp all
    have whole : typed (savablesOfAll (component :: others)) =
        (component, component.kind) :: (typed (savablesOfAll component.children) ++
          typed (savablesOfAll others)) := by
      rw [savablesOfAll, typed, List.map_append]
      exact congrArg (· ++ _) (typed_savables_of_isKept first)
    rw [List.forall_mem_cons, ← ih later, whole, List.map_cons, List.cons_inj_right]
    constructor
    · intro same
      -- the others yield at least themselves, so there is no room for anything from below
      have room := length_le_length_savablesOfAll later
      have lengths := congrArg List.length same
      rw [List.length_append, List.length_map, typed, typed, List.length_map,
        List.length_map] at lengths
      have below : savablesOfAll component.children = [] :=
        List.eq_nil_of_length_eq_zero (by omega)
      rw [below] at same
      exact ⟨below, same⟩
    · rintro ⟨below, same⟩
      rw [below, same]
      rfl

end Component

namespace Forest

open Component

variable {forest : Forest}

/-- The components are told by components and types. -/
theorem map_component_of_typed {nodes : List Component}
    (same : typed forest.savables = nodes.map fun node => (node, node.kind)) :
    forest.savables.map (·.component) = nodes := by
  have components := congrArg (List.map Prod.fst) same
  rw [typed, List.map_map, List.map_map] at components
  exact components.trans (List.map_id _)

theorem map_component_savables (forest : Forest) :
    forest.savables.map (·.component) = forest.nodes.filter isKept :=
  map_component_of_typed (typed_savablesOfAll forest)

theorem all_isKept (forest : Forest) :
    ∀ component ∈ forest.savables.map (·.component), component.isKept = true := by
  intro component mem
  rw [map_component_savables] at mem
  exact (List.mem_filter.mp mem).2

/-- Nothing savable is below a kept component exactly if nothing savable is below a savable
    one that is no container. -/
theorem forall_isKept_iff :
    (∀ node ∈ forest.nodes.filter isKept, node.descendants.any isSavable = false) ↔
      ∀ node ∈ forest.nodes, node.isSavable = true → node.isContainer = false →
        node.descendants.any isSavable = false := by
  constructor
  · intro none node mem savable content
    have kept : node.isKept = true := by
      rw [isKept, savable, content]
      rfl
    exact none node (List.mem_filter.mpr ⟨mem, kept⟩)
  · intro none node mem
    obtain ⟨mem, kept⟩ := List.mem_filter.mp mem
    cases groups : node.isContainer with
    | false => exact none node mem (isSavable_of_isKept kept) groups
    | true =>
      rw [isKept, groups, Bool.true_and, Bool.and_eq_true, Bool.not_eq_true'] at kept
      exact kept.2

theorem typed_savables_again_iff (forest : Forest) :
    typed (Forest.savables (forest.savables.map (·.component))) = typed forest.savables ↔
      ∀ node ∈ forest.nodes, node.isSavable = true → node.isContainer = false →
        node.descendants.any isSavable = false := by
  have typed' : typed forest.savables =
      (forest.savables.map (·.component)).map fun node => (node, node.kind) := by
    rw [map_component_savables]
    exact typed_savablesOfAll forest
  rw [typed', Forest.savables, typed_savablesOfAll_eq_iff (all_isKept forest),
    ← forall_isKept_iff, map_component_savables]
  simp only [savablesOfAll_children_eq_nil_iff]

/-- What is saved again by itself comes first, and as the same entry if the title was its
    own. -/
theorem savables_singleton {entry : Savable} (mem : entry ∈ forest.savables) :
    ∃ again rest, Forest.savables [entry.component] = again :: rest ∧
      again.component = entry.component ∧ again.kindName = entry.kindName ∧
      (entry.source = .own → again = entry) := by
  have kept := all_isKept forest _ (List.mem_map_of_mem mem)
  rw [savables_eq_map_entry] at mem
  obtain ⟨place, -, rfl⟩ := List.mem_map.mp mem
  rw [place.component_entry] at kept ⊢
  have again : Forest.savables [place.component] = place.component.savables :=
    List.append_nil _
  rw [again, savables_of_isKept kept]
  refine ⟨_, _, rfl, component_entry _ _, ?_, entry_eq_of_own⟩
  rw [place.kindName_entry, kindName_entry]

theorem savables_map_component (forest : Forest) :
    Forest.savables (forest.savables.map (·.component)) =
      forest.savables.flatMap fun entry => Forest.savables [entry.component] := by
  have single : Component.savables = fun component => Forest.savables [component] := by
    funext component
    exact (List.append_nil _).symm
  rw [Forest.savables, savablesOfAll_eq_flatMap, List.flatMap_map, single]

/-- Savable components without children are yielded as they are. -/
theorem typed_savables_of_leaves
    (leaves : ∀ leaf ∈ forest, leaf.isSavable = true ∧ leaf.children = []) :
    typed forest.savables = forest.map fun leaf => (leaf, leaf.kind) := by
  have all : ∀ leaf ∈ forest, leaf.isKept = true := by
    intro leaf mem
    obtain ⟨savable, childless⟩ := leaves leaf mem
    have none : leaf.descendants = [] := by
      rw [descendants, childless]
      rfl
    rw [isKept, savable, none, List.any_nil, Bool.and_false]
    rfl
  refine (typed_savablesOfAll_eq_iff all).mpr fun leaf mem => ?_
  rw [(leaves leaf mem).2]
  rfl

/-- What is saved can be saved again: each entry yields its own component first, and the same
    entry if the title was its own.  The components and types stay the same exactly if nothing
    savable is below a savable component that is no container, so they do for savable
    components without children, whose entries stay the same altogether. -/
theorem saving_again :
    (∀ forest : Forest,
      typed (Forest.savables (forest.savables.map (·.component))) = typed forest.savables ↔
        ∀ node ∈ forest.nodes, node.isSavable = true → node.isContainer = false →
          node.descendants.any isSavable = false) ∧
    (∀ forest : Forest,
      Forest.savables (forest.savables.map (·.component)) =
        forest.savables.flatMap fun entry => Forest.savables [entry.component]) ∧
    (∀ forest : Forest, ∀ entry ∈ forest.savables,
      ∃ again rest, Forest.savables [entry.component] = again :: rest ∧
        again.component = entry.component ∧ again.kindName = entry.kindName ∧
        (entry.source = .own → again = entry)) ∧
    (∀ forest : Forest, (∀ leaf ∈ forest, leaf.isSavable = true ∧ leaf.children = []) →
      typed forest.savables = (forest.map fun leaf => (leaf, leaf.kind)) ∧
      Forest.savables (forest.savables.map (·.component)) = forest.savables) := by
  refine ⟨typed_savables_again_iff, savables_map_component, ?_, ?_⟩
  · intro forest entry mem
    exact savables_singleton mem
  · intro forest leaves
    have same := typed_savables_of_leaves leaves
    exact ⟨same, congrArg Forest.savables (map_component_of_typed same)⟩

/-- A titled metric and a card that holds nothing. -/
def plain : Forest :=
  [⟨"metric", none, [("title", .str "CPU")], [], .children⟩, ⟨"card", none, [], [], .children⟩]

/-- The list of the overview yields itself, and once more the metric that is in it. -/
theorem saving_again_overview :
    typed (Forest.savables ((overview "Left" "Runs" "Disk").savables.map (·.component))) ≠
        typed (overview "Left" "Runs" "Disk").savables ∧
      (∃ entry ∈ (overview "Left" "Runs" "Disk").savables,
        entry.title = "Runs" ∧ entry.source = .own ∧
        ∃ rest, Forest.savables [entry.component] = entry :: rest) ∧
      (∀ leaf ∈ plain, leaf.isSavable = true ∧ leaf.children = []) ∧
      Forest.savables (plain.savables.map (·.component)) = plain.savables := by
  obtain ⟨fixed, -, first, flat⟩ := saving_again
  refine ⟨?_, ?_, ?_⟩
  · intro same
    have nested : ¬∀ node ∈ (overview "Left" "Runs" "Disk").nodes, node.isSavable = true →
        node.isContainer = false → node.descendants.any isSavable = false := by
      decide +kernel
    exact nested ((fixed _).mp same)
  · have whole : (overview "Left" "Runs" "Disk").savables[0]?.map
        (fun entry => (entry.title, entry.source)) = some ("Runs", .own) := by
      decide +kernel
    obtain ⟨entry, found, told⟩ := Option.map_eq_some_iff.mp whole
    obtain ⟨title, own⟩ := Prod.mk.inj told
    have mem := List.mem_of_getElem? found
    obtain ⟨again, rest, yields, -, -, same⟩ := first _ entry mem
    rw [same own] at yields
    exact ⟨entry, mem, title, own, rest, yields⟩
  · have leaves : ∀ leaf ∈ plain, leaf.isSavable = true ∧ leaf.children = [] := by
      refine List.forall_mem_cons.mpr ⟨⟨by decide +kernel, rfl⟩, ?_⟩
      exact List.forall_mem_singleton.mpr ⟨by decide +kernel, rfl⟩
    exact ⟨leaves, (flat plain leaves).2⟩

end Forest
end Liveboard
