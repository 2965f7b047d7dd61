/-
  Liveboard/Proofs/Component/Extraction.lean
  ==========================================
  **Which components of a forest are saved.**

  A component is kept if its kind can be saved and it is no container with something savable
  below it.  Saving decides that bottom-up, from what the children of a component yield;
  `isKept` says it of each component by itself.  What a forest yields is the list of its
  components in document order, cut down to those that are kept (`savables_are_kept`).

  The two agree because whatever has something savable in it keeps something: of the savable
  components of a tree the deepest ones are always kept (`any_isKept`).  One step of saving is
  told by `collect_eq`: what a component adds, and which title it hands down; in terms of what is
  kept, by `savables_eq_handDown`.
-/
import Liveboard.Component.Savable

namespace Liveboard

namespace Component

variable {component : Component} {nested : List Savable}

/-! ### The components of a tree -/

mutual
/-- The components of a tree in document order: the root, then what is below it. -/
def nodes : Component → List Component
  | ⟨kind, id, attributes, children, slot⟩ =>
    ⟨kind, id, attributes, children, slot⟩ :: nodesOfAll children
termination_by structural component => component

def nodesOfAll : List Component → List Component
  | [] => []
  | component :: forest => nodes component ++ nodesOfAll forest
termination_by structural forest => forest
end

/-- The components below the root. -/
def descendants (component : Component) : List Component := nodesOfAll component.children

theorem nodes_eq (component : Component) : component.nodes = component :: component.descendants := by
  cases component
  rfl

theorem savables_eq (component : Component) :
    component.savables = component.collect (savablesOfAll component.children) := by
  cases component
  rfl

/-! ### What is kept -/

/-- The catalog has the kind, and it can be saved. -/
def isSavable (component : Component) : Bool := component.catalogKind?.any Kind.isSavable

/-- The catalog has the kind, and it groups others. -/
def isContainer (component : Component) : Bool := component.catalogKind?.any Kind.isContainer

/-- Savable, and not a container with something savable below it. -/
def isKept (component : Component) : Bool :=
  component.isSavable && !(component.isContainer && component.descendants.any isSavable)

theorem isSavable_of_isKept (kept : component.isKept = true) : component.isSavable = true := by
  rw [isKept, Bool.and_eq_true] at kept
  exact kept.1

/-- A savable component is kept unless something below it is savable. -/
theorem isKept_or_any_descendants (savable : component.isSavable = true) :
    component.isKept = true ∨ component.descendants.any isSavable = true := by
  by_cases below : component.descendants.any isSavable = true
  · exact .inr below
  · refine .inl ?_
    rw [Bool.not_eq_true] at below
    rw [isKept, savable, below, Bool.and_false]
    rfl

mutual
theorem any_isKept_nodes : ∀ component : Component,
    component.nodes.any isSavable = true → component.nodes.any isKept = true
  | ⟨kind, id, attributes, children, slot⟩ => by
    intro savable
    have below := any_isKept_nodesOfAll children
    rw [nodes, List.any_cons, Bool.or_eq_true] at savable ⊢
    rcases savable with root | savable
    · rcases isKept_or_any_descendants root with kept | savable
      · exact .inl kept
      · exact .inr (below savable)
    · exact .inr (below savable)
termination_by structural component => component

theorem any_isKept_nodesOfAll : ∀ forest : List Component,
    (nodesOfAll forest).any isSavable = true → (nodesOfAll forest).any isKept = true
  | [] => fun savable => savable
  | component :: forest => by
    intro savable
    rw [nodesOfAll, List.any_append, Bool.or_eq_true] at savable ⊢
    exact savable.imp (any_isKept_nodes component) (any_isKept_nodesOfAll forest)
termination_by structural forest => forest
end

/-- A forest keeps something exactly if something in it is savable. -/
theorem any_isKept (forest : List Component) :
    (nodesOfAll forest).any isKept = (nodesOfAll forest).any isSavable := by
  rw [Bool.eq_iff_iff]
  constructor
  · intro kept
    obtain ⟨node, mem, kept⟩ := List.any_eq_true.mp kept
    exact List.any_eq_true.mpr ⟨node, mem, isSavable_of_isKept kept⟩
  · exact any_isKept_nodesOfAll forest

/-! ### Titles that are handed down -/

/-- The title that a component hands down: that of a container, if it has one. -/
def groupTitle? (component : Component) : Option String :=
  if component.isContainer then component.displayTitle? else none

theorem groupTitle?_eq_some_iff {title : String} :
    component.groupTitle? = some title ↔
      component.isContainer = true ∧ component.displayTitle? = some title := by
  simp only [groupTitle?, Option.ite_none_right_eq_some]

theorem groupTitle?_eq_none_iff :
    component.groupTitle? = none ↔
      (component.isContainer = true → component.displayTitle? = none) := by
  simp only [groupTitle?, ite_eq_right_iff]

/-- The entry of a component to which a title was handed down, or none. -/
def entry (component : Component) (handed? : Option String) : Savable :=
  match component.displayTitle?, handed? with
  | some title, _ => ⟨component, component.kind, title, .own⟩
  | none, some title => ⟨component, component.kind, title, .container⟩
  | none, none => ⟨component, component.kind, component.kind, .kindName⟩

/-- An entry below the component, after the component handed its title down. -/
def handDown (component : Component) (entry : Savable) : Savable :=
  match component.groupTitle? with
  | some title => entry.inherit title
  | none => entry

theorem component_entry (component : Component) (handed? : Option String) :
    (component.entry handed?).component = component := by
  unfold entry
  split <;> rfl

theorem kindName_entry (component : Component) (handed? : Option String) :
    (component.entry handed?).kindName = component.kind := by
  unfold entry
  split <;> rfl

theorem handDown_entry (component below : Component) (handed? : Option String) :
    component.handDown (below.entry handed?) =
      below.entry (handed?.or component.groupTitle?) := by
  unfold handDown entry
  cases below.displayTitle? <;> cases handed? <;> cases component.groupTitle? <;> rfl

theorem map_handDown_of_groupTitle?_eq_none (none : component.groupTitle? = none)
    (entries : List Savable) : entries.map component.handDown = entries := by
  have same : ∀ entry ∈ entries, component.handDown entry = entry := by
    intro entry _
    rw [handDown, none]
  exact (List.map_congr_left same).trans (List.map_id' entries)

/-! ### One step of saving -/

theorem isSome_savableKind? (component : Component) :
    component.savableKind?.isSome = component.isSavable := by
  rw [savableKind?, isSavable]
  cases component.catalogKind? with
  | none => rfl
  | some kind =>
    by_cases savable : kind.isSavable = true
    · simp [savable]
    · simp [savable]

theorem isContainer_of_savableKind? {kind : Kind} (found : component.savableKind? = some kind) :
    component.isContainer = kind.isContainer := by
  rw [isContainer, (Option.filter_eq_some_iff.mp found).1, Option.any_some]

theorem name_of_savableKind? {kind : Kind} (found : component.savableKind? = some kind) :
    kind.name = component.kind :=
  Kind.ofName?_eq_some_iff.mp (Option.filter_eq_some_iff.mp found).1

theorem ofComponent_eq_entry {kind : Kind} (found : component.savableKind? = some kind) :
    Savable.ofComponent component kind = component.entry none := by
  unfold Savable.ofComponent entry
  rw [name_of_savableKind? found]
  cases component.displayTitle? <;> rfl

theorem isSavable_of_isContainer (groups : component.isContainer = true) :
    component.isSavable = true := by
  obtain ⟨kind, found, groups⟩ := (Option.any_eq_true _ _).mp groups
  exact (Option.any_eq_true _ _).mpr ⟨kind, found, Kind.isSavable_of_isContainer groups⟩

theorem groupTitle?_of_not_isContainer (groups : ¬component.isContainer = true) :
    component.groupTitle? = none :=
  groupTitle?_eq_none_iff.mpr fun here => absurd here groups

/-- A container that holds something to save disappears. -/
theorem collect_of_isContainer {kind : Kind} (found : component.savableKind? = some kind)
    (groups : component.isContainer = true) (some : nested ≠ []) :
    component.collect nested = nested.map component.handDown := by
  have container := isContainer_of_savableKind? found
  rw [groups] at container
  rw [collect, found]
  simp only
  rw [if_pos container.symm, List.isEmpty_eq_false_iff.mpr some, if_neg Bool.false_ne_true]
  cases titled : component.displayTitle? with
  | none =>
    have none := groupTitle?_eq_none_iff.mpr fun _ => titled
    exact (map_handDown_of_groupTitle?_eq_none none nested).symm
  | some title =>
    have handed := groupTitle?_eq_some_iff.mpr ⟨groups, titled⟩
    refine List.map_congr_left fun entry _ => ?_
    rw [handDown, handed]

/-- A savable component puts itself in front of what its children yield, unless it is a
    container and they yield something; and a container hands its title down to them. -/
theorem collect_eq (component : Component) (nested : List Savable) :
    component.collect nested =
      (if component.isSavable && !(component.isContainer && !nested.isEmpty) then
        [component.entry none]
      else []) ++ nested.map component.handDown := by
  have savable := component.isSome_savableKind?
  cases found : component.savableKind? with
  | none =>
    rw [found, Option.isSome_none] at savable
    have groups : ¬component.isContainer = true := by
      intro groups
      rw [isSavable_of_isContainer groups] at savable
      cases savable
    rw [collect, found, ← savable, Bool.false_and, if_neg Bool.false_ne_true, List.nil_append,
      map_handDown_of_groupTitle?_eq_none (groupTitle?_of_not_isContainer groups)]
  | some kind =>
    rw [found, Option.isSome_some] at savable
    rw [← savable, Bool.true_and]
    by_cases groups : component.isContainer = true
    · by_cases empty : nested = []
      · subst empty
        have container := (isContainer_of_savableKind? found).symm.trans groups
        rw [groups, ← ofComponent_eq_entry found, collect, found]
        simp only
        rw [if_pos container]
        rfl
      · rw [collect_of_isContainer found groups empty, groups,
          List.isEmpty_eq_false_iff.mpr empty]
        rfl
    · have container := mt (isContainer_of_savableKind? found).trans groups
      rw [Bool.eq_false_iff.mpr groups, ← ofComponent_eq_entry found,
        map_handDown_of_groupTitle?_eq_none (groupTitle?_of_not_isContainer groups), collect,
        found]
      simp only
      rw [if_neg container]
      rfl

/-- Components and their types: all of an entry but its title. -/
def typed (entries : List Savable) : List (Component × String) :=
  entries.map fun entry => (entry.component, entry.kindName)

theorem typed_map_handDown (component : Component) (entries : List Savable) :
    typed (entries.map component.handDown) = typed entries := by
  rw [typed, typed, List.map_map]
  refine List.map_congr_left ?_
  intro entry _
  rw [Function.comp, handDown]
  cases component.groupTitle? with
  | none => rfl
  | some title =>
    simp only
    rw [Savable.inherit]
    by_cases own : entry.hasDistinctTitle = true
    · rw [if_pos own]
    · rw [if_neg own]

theorem typed_entry (component : Component) (handed? : Option String) :
    typed [component.entry handed?] = [(component, component.kind)] := by
  rw [typed, List.map_singleton, component_entry, kindName_entry]

/-- A savable component puts itself in front of what its children yield, unless it is a
    container and they yield something. -/
theorem typed_collect (component : Component) (nested : List Savable) :
    typed (component.collect nested) =
      if component.isSavable && !(component.isContainer && !nested.isEmpty) then
        (component, component.kind) :: typed nested
      else typed nested := by
  have handed := typed_map_handDown component nested
  rw [typed] at handed
  rw [collect_eq, typed, List.map_append, handed]
  split
  · exact congrArg (· ++ typed nested) (typed_entry component none)
  · rfl

/-! ### What a whole forest yields -/

/-- What the children yield tells whether anything below is savable. -/
theorem isEmpty_of_typed_eq {forest : List Component}
    (same : typed nested = ((nodesOfAll forest).filter isKept).map fun node => (node, node.kind)) :
    nested.isEmpty = !(nodesOfAll forest).any isSavable := by
  have lengths : (typed nested).isEmpty = nested.isEmpty := List.isEmpty_map
  rw [← lengths, same, List.isEmpty_map, ← any_isKept, List.not_any_eq_all_not, Bool.eq_iff_iff,
    List.isEmpty_iff, List.filter_eq_nil_iff, List.all_eq_true]
  simp only [Bool.not_eq_true, Bool.not_eq_true']

/-- A component puts itself in front of what its children yield exactly if it is kept. -/
theorem isKept_eq (empty : nested.isEmpty = !component.descendants.any isSavable) :
    (component.isSavable && !(component.isContainer && !nested.isEmpty)) = component.isKept := by
  rw [empty, Bool.not_not]
  rfl

theorem typed_savables_of_children
    (below : typed (savablesOfAll component.children) =
      (component.descendants.filter isKept).map fun node => (node, node.kind)) :
    typed component.savables =
      (component.nodes.filter isKept).map fun node => (node, node.kind) := by
  rw [savables_eq, typed_collect, isKept_eq (isEmpty_of_typed_eq below), nodes_eq,
    List.filter_cons, below]
  by_cases root : component.isKept = true
  · rw [if_pos root, if_pos root, List.map_cons]
  · rw [if_neg root, if_neg root]

mutual
theorem typed_savables : ∀ component : Component,
    typed component.savables = (component.nodes.filter isKept).map fun node => (node, node.kind)
  | ⟨_, _, _, children, _⟩ => typed_savables_of_children (typed_savablesOfAll children)
termination_by structural component => component

theorem typed_savablesOfAll : ∀ forest : List Component,
    typed (savablesOfAll forest) =
      ((nodesOfAll forest).filter isKept).map fun node => (node, node.kind)
  | [] => rfl
  | component :: forest => by
    have first := typed_savables component
    have later := typed_savablesOfAll forest
    rw [typed] at first later
    rw [savablesOfAll, nodesOfAll, typed, List.map_append, List.filter_append, List.map_append,
      first, later]
termination_by structural forest => forest
end

/-- A forest yields nothing exactly if nothing in it is savable. -/
theorem isEmpty_savablesOfAll (forest : List Component) :
    (savablesOfAll forest).isEmpty = !(nodesOfAll forest).any isSavable :=
  isEmpty_of_typed_eq (typed_savablesOfAll forest)

/-- A component yields itself, if it is kept, and then what its children yield, after it handed
    its title down. -/
theorem savables_eq_handDown (component : Component) :
    component.savables =
      (if component.isKept then [component.entry none] else []) ++
        (savablesOfAll component.children).map component.handDown := by
  rw [savables_eq, collect_eq, isKept_eq (isEmpty_savablesOfAll component.children)]

end Component

/-! ### Forests -/

namespace Forest

/-- The components of a forest in document order. -/
def nodes (forest : Forest) : List Component := Component.nodesOfAll forest

/-- A forest yields the components that are kept, in document order and as they are, each under
    the name of its kind; and a tree in which something is savable never yields nothing. -/
theorem savables_are_kept :
    (∀ forest : Forest,
      forest.savables.map (fun entry => (entry.component, entry.kindName)) =
        (forest.nodes.filter Component.isKept).map fun node => (node, node.kind)) ∧
    (∀ component : Component,
      component.savables.isEmpty = !component.nodes.any Component.isSavable) := by
  refine ⟨fun forest => Component.typed_savablesOfAll forest, ?_⟩
  intro component
  have alone := Component.typed_savablesOfAll [component]
  rw [Component.savablesOfAll, Component.savablesOfAll, List.append_nil] at alone
  rw [Component.isEmpty_of_typed_eq alone, Component.nodesOfAll, Component.nodesOfAll,
    List.append_nil]

-- The first card groups something savable and goes; the second groups nothing and stays.  The
-- markdown, no container, stays with all that is below it.
example :
    (savables
      [⟨"row", none, [], [⟨"card", none, [],
        [⟨"markdown", none, [], [⟨"metric", none, [], [], .children⟩], .content⟩,
          ⟨"text", none, [], [], .children⟩], .children⟩], .children⟩,
       ⟨"card", none, [], [⟨"gauge", none, [], [], .children⟩], .children⟩]).map
      (·.kindName) = ["markdown", "metric", "card"] := by
  decide +kernel

end Forest
end Liveboard
