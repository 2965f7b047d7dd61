/-
  Liveboard/Proofs/Component/Places.lean
  ======================================
  **Where the components of a forest stand.**

  A place is a component together with all that encloses it, from the nearest on.  The places
  of a forest, in document order, are those of its components (`map_component_places`); what
  stands deeper has the same places, with more around them (`placesOfAllIn_append`).

  The lineage of a place is its component and what encloses it, each without its children.  It
  tells a component's own data and its parents; and the lineages of a forest, in document
  order, leave nothing open: no other forest has the same (`eq_of_lineages`).
-/
import Liveboard.Proofs.Component.Extraction

namespace Liveboard

/-- A component of a forest and what encloses it there, from the nearest on. -/
structure Place where
  component : Component
  enclosing : List Component

namespace Component

/-! ### The places of a tree -/

mutual
/-- The places of a tree that stands inside `outer`, in document order. -/
def placesIn (outer : List Component) : Component → List Place
  | ⟨kind, id, attributes, children, slot⟩ =>
    ⟨⟨kind, id, attributes, children, slot⟩, outer⟩ ::
      placesOfAllIn (⟨kind, id, attributes, children, slot⟩ :: outer) children
termination_by structural component => component

def placesOfAllIn (outer : List Component) : List Component → List Place
  | [] => []
  | component :: forest => placesIn outer component ++ placesOfAllIn outer forest
termination_by structural forest => forest
end

theorem placesIn_eq (outer : List Component) (component : Component) :
    component.placesIn outer =
      ⟨component, outer⟩ :: placesOfAllIn (component :: outer) component.children := by
  cases component
  rfl

end Component

namespace Place

/-- The same place with more around it. -/
def within (place : Place) (further : List Component) : Place :=
  { place with enclosing := place.enclosing ++ further }

end Place

namespace Component

mutual
theorem placesIn_append (outer further : List Component) : ∀ component : Component,
    component.placesIn (outer ++ further) = (component.placesIn outer).map (·.within further)
  | ⟨kind, id, attributes, children, slot⟩ => by
    rw [placesIn, placesIn, List.map_cons, ← List.cons_append,
      placesOfAllIn_append _ further children]
    rfl
termination_by structural component => component

/-- What encloses a whole forest comes last at each of its places. -/
theorem placesOfAllIn_append (outer further : List Component) : ∀ forest : List Component,
    placesOfAllIn (outer ++ further) forest =
      (placesOfAllIn outer forest).map (·.within further)
  | [] => rfl
  | component :: forest => by
    rw [placesOfAllIn, placesOfAllIn, List.map_append, placesIn_append outer further component,
      placesOfAllIn_append outer further forest]
termination_by structural forest => forest
end

mutual
theorem map_component_placesIn (outer : List Component) : ∀ component : Component,
    (component.placesIn outer).map (·.component) = component.nodes
  | ⟨kind, id, attributes, children, slot⟩ => by
    rw [placesIn, nodes, List.map_cons, map_component_placesOfAllIn _ children]
termination_by structural component => component

theorem map_component_placesOfAllIn (outer : List Component) : ∀ forest : List Component,
    (placesOfAllIn outer forest).map (·.component) = nodesOfAll forest
  | [] => rfl
  | component :: forest => by
    rw [placesOfAllIn, nodesOfAll, List.map_append, map_component_placesIn outer component,
      map_component_placesOfAllIn outer forest]
termination_by structural forest => forest
end

mutual
theorem enclosing_suffix_placesIn (outer : List Component) : ∀ component : Component,
    ∀ place ∈ component.placesIn outer, outer <:+ place.enclosing
  | ⟨kind, id, attributes, children, slot⟩ => by
    intro place mem
    rw [placesIn] at mem
    rcases List.mem_cons.mp mem with rfl | mem
    · exact List.suffix_rfl
    · exact (List.suffix_cons _ outer).trans (enclosing_suffix_placesOfAllIn _ children place mem)
termination_by structural component => component

/-- Whatever stands inside a forest stands inside what encloses the forest. -/
theorem enclosing_suffix_placesOfAllIn (outer : List Component) : ∀ forest : List Component,
    ∀ place ∈ placesOfAllIn outer forest, outer <:+ place.enclosing
  | [] => by
    intro place mem
    cases mem
  | component :: forest => by
    intro place mem
    rcases List.mem_append.mp mem with mem | mem
    · exact enclosing_suffix_placesIn outer component place mem
    · exact enclosing_suffix_placesOfAllIn outer forest place mem
termination_by structural forest => forest
end

/-! ### Lineages -/

/-- The component without its children. -/
def bare (component : Component) : Component := { component with children := [] }

theorem eq_of_bare {component other : Component} (same : component.bare = other.bare)
    (children : component.children = other.children) : component = other := by
  obtain ⟨kind, id, attributes, own, slot⟩ := component
  obtain ⟨kind', id', attributes', own', slot'⟩ := other
  simp only [bare, mk.injEq] at same children ⊢
  exact ⟨same.1, same.2.1, same.2.2.1, children, same.2.2.2.2⟩

end Component

/-- A component and what encloses it, from the nearest on, each without its children. -/
def Place.lineage (place : Place) : List Component :=
  (place.component :: place.enclosing).map Component.bare

namespace Component

/-- The lineages of a forest that stands inside `outer`, in document order. -/
def lineagesIn (outer forest : List Component) : List (List Component) :=
  (placesOfAllIn outer forest).map Place.lineage

theorem lineagesIn_cons (outer : List Component) (component : Component)
    (forest : List Component) :
    lineagesIn outer (component :: forest) =
      (component :: outer).map bare ::
        (lineagesIn (component :: outer) component.children ++ lineagesIn outer forest) := by
  rw [lineagesIn, placesOfAllIn, placesIn_eq, List.cons_append, List.map_cons, List.map_append]
  rfl

/-- What comes next, if anything does, stands no deeper than that. -/
def Surfaces (depth : Nat) (later : List (List Component)) : Prop :=
  ∀ lineage ∈ later.head?, lineage.length ≤ depth

theorem surfaces_nil (depth : Nat) : Surfaces depth [] := by
  intro lineage first
  cases first

theorem Surfaces.lineagesIn_append {outer : List Component} {later : List (List Component)}
    (surfaces : Surfaces outer.length later) (forest : List Component) :
    Surfaces (outer.length + 1) (lineagesIn outer forest ++ later) := by
  intro lineage first
  cases forest with
  | nil => exact Nat.le_succ_of_le (surfaces lineage first)
  | cons component forest =>
    rw [lineagesIn_cons] at first
    cases first
    simp

/-- A forest that is not empty goes deeper than what encloses it. -/
theorem not_surfaces_lineagesIn_cons (outer : List Component) (component : Component)
    (forest : List Component) (later : List (List Component)) :
    ¬Surfaces outer.length (lineagesIn outer (component :: forest) ++ later) := by
  intro surfaces
  rw [lineagesIn_cons] at surfaces
  have deeper := surfaces _ rfl
  rw [List.length_map] at deeper
  exact Nat.not_succ_le_self _ deeper

/-- The lineages of the forest tell it, and where it ends in a list that goes on further out. -/
def IsTold (forest : List Component) : Prop :=
  ∀ {other outer outer' : List Component} {later later' : List (List Component)},
    outer.map bare = outer'.map bare →
    Surfaces outer.length later → Surfaces outer'.length later' →
    lineagesIn outer forest ++ later = lineagesIn outer' other ++ later' →
    forest = other ∧ later = later'

theorem isTold_nil : IsTold [] := by
  intro other outer outer' later later' same surfaces _ lineages
  cases other with
  | nil => exact ⟨rfl, lineages⟩
  | cons component other =>
    have depth := congrArg List.length same
    rw [List.length_map, List.length_map] at depth
    rw [show later = _ from lineages, depth] at surfaces
    exact absurd surfaces (not_surfaces_lineagesIn_cons outer' component other later')

theorem isTold_cons {component : Component} {forest : List Component}
    (children : IsTold component.children) (told : IsTold forest) :
    IsTold (component :: forest) := by
  intro other outer outer' later later' same surfaces surfaces' lineages
  cases other with
  | nil =>
    have depth := congrArg List.length same
    rw [List.length_map, List.length_map] at depth
    rw [← show _ = later' from lineages, ← depth] at surfaces'
    exact absurd surfaces' (not_surfaces_lineagesIn_cons outer component forest later)
  | cons component' other =>
    rw [lineagesIn_cons, lineagesIn_cons, List.cons_append, List.cons_append,
      List.append_assoc, List.append_assoc] at lineages
    obtain ⟨roots, lineages⟩ := List.cons.inj lineages
    have root : component.bare = component'.bare := (List.cons.inj roots).1
    obtain ⟨below, lineages⟩ := children roots (surfaces.lineagesIn_append forest)
      (surfaces'.lineagesIn_append other) lineages
    obtain ⟨rest, after⟩ := told same surfaces surfaces' lineages
    exact ⟨by rw [eq_of_bare root below, rest], after⟩

mutual
theorem isTold_children : ∀ component : Component, IsTold component.children
  | ⟨_, _, _, children, _⟩ => isTold children
termination_by structural component => component

theorem isTold : ∀ forest : List Component, IsTold forest
  | [] => isTold_nil
  | component :: forest => isTold_cons (isTold_children component) (isTold forest)
termination_by structural forest => forest
end

end Component

namespace Forest

/-- The places of a forest in document order. -/
def places (forest : Forest) : List Place := Component.placesOfAllIn [] forest

theorem map_component_places (forest : Forest) :
    forest.places.map (·.component) = forest.nodes :=
  Component.map_component_placesOfAllIn [] forest

/-- The lineages of a forest in document order tell the forest. -/
theorem eq_of_lineages {forest other : Forest}
    (same : forest.places.map Place.lineage = other.places.map Place.lineage) :
    forest = other := by
  have none := Component.surfaces_nil ([] : List Component).length
  refine (Component.isTold forest rfl none none ?_).1
  rw [List.append_nil, List.append_nil]
  exact same

end Forest
end Liveboard
