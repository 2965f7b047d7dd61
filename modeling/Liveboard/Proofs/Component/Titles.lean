/-
  Liveboard/Proofs/Component/Titles.lean
  ======================================
  **Which title a saved component gets.**

  Saving works bottom-up: each container that disappears hands its title to the entries below
  that have none of their own, and an entry that was given a title keeps it.  Seen from the
  place of the component that comes to this: its own title; else that of the nearest container
  around it that has one; else the name of its kind (`Place.Entitles`).  What a forest yields
  is the list of the entries of its places, cut down to the components that are kept
  (`savables_eq_map_entry`).

  The two agree because one step outwards hands down the title of one more component to all
  entries (`entry_within`), which is what one step of saving does
  (`Component.savables_eq_handDown`).
-/
import Liveboard.Proofs.Component.Places

namespace Liveboard

/-! ### The entry of a place -/

namespace Place

variable {place other : Place}

/-- The component, under the nearest title that is handed down to it if it has none itself. -/
def entry (place : Place) : Savable :=
  place.component.entry (place.enclosing.findSome? Component.groupTitle?)

/-- Which title a place gives its component, and where it comes from. -/
inductive Entitles (place : Place) : String → TitleSource → Prop where
  | own {title : String} (has : place.component.displayTitle? = some title) :
      Entitles place title .own
  | container {title : String} {nearer farther : List Component} {container : Component}
      (untitled : place.component.displayTitle? = none)
      (around : place.enclosing = nearer ++ container :: farther)
      (groups : container.isContainer = true) (has : container.displayTitle? = some title)
      (nearest : ∀ other ∈ nearer, other.isContainer = true → other.displayTitle? = none) :
      Entitles place title .container
  | kindName (untitled : place.component.displayTitle? = none)
      (none : ∀ other ∈ place.enclosing, other.isContainer = true →
        other.displayTitle? = Option.none) :
      Entitles place place.component.kind .kindName

/-- The titles of the containers around a place, from the nearest on. -/
def groupTitles (place : Place) : List String := place.enclosing.filterMap Component.groupTitle?

/-- Two places, perhaps of different forests, that agree in the kind and the title of their
    components and in the titles of the containers around them. -/
structure SameTitles (place other : Place) : Prop where
  kind : place.component.kind = other.component.kind
  own : place.component.displayTitle? = other.component.displayTitle?
  groups : place.groupTitles = other.groupTitles

theorem component_entry (place : Place) : place.entry.component = place.component :=
  place.component.component_entry _

theorem kindName_entry (place : Place) : place.entry.kindName = place.component.kind :=
  place.component.kindName_entry _

theorem entitles_entry (place : Place) :
    place.Entitles place.entry.title place.entry.source := by
  unfold entry Component.entry
  split
  · next has => exact .own has
  · next untitled found =>
    obtain ⟨nearer, container, farther, around, titled, nearest⟩ :=
      List.findSome?_eq_some_iff.mp found
    obtain ⟨groups, has⟩ := Component.groupTitle?_eq_some_iff.mp titled
    refine .container untitled around groups has ?_
    intro other mem
    exact Component.groupTitle?_eq_none_iff.mp (nearest other mem)
  · next untitled none =>
    refine .kindName untitled ?_
    intro other mem
    exact Component.groupTitle?_eq_none_iff.mp (List.findSome?_eq_none_iff.mp none other mem)

theorem title_entry_congr (same : place.SameTitles other) :
    place.entry.title = other.entry.title ∧ place.entry.source = other.entry.source := by
  have groups := same.groups
  unfold groupTitles at groups
  unfold entry Component.entry
  rw [← List.head?_filterMap, ← List.head?_filterMap, groups, same.own]
  split
  · exact ⟨rfl, rfl⟩
  · exact ⟨rfl, rfl⟩
  · exact ⟨same.kind, rfl⟩

/-- One component more around the place hands its title down to the entry. -/
theorem entry_within (place : Place) (component : Component) :
    (place.within [component]).entry = component.handDown place.entry := by
  unfold entry within
  rw [List.findSome?_append, List.findSome?_singleton, Component.handDown_entry]

end Place

namespace Component

variable {component : Component}

/-! ### What a whole forest yields -/

/-- The entries of the components that are kept, at their places. -/
def entriesOf (places : List Place) : List Savable :=
  (places.filter (·.component.isKept)).map Place.entry

theorem entriesOf_append (places later : List Place) :
    entriesOf (places ++ later) = entriesOf places ++ entriesOf later := by
  rw [entriesOf, List.filter_append, List.map_append]
  rfl

theorem entriesOf_cons (place : Place) (places : List Place) :
    entriesOf (place :: places) =
      (if place.component.isKept then [place.entry] else []) ++ entriesOf places := by
  rw [entriesOf, List.filter_cons]
  split <;> rfl

/-- Entries from inside a component are the entries from inside its children, after it handed
    its title down. -/
theorem entriesOf_within (places : List Place) (component : Component) :
    entriesOf (places.map (·.within [component])) =
      (entriesOf places).map component.handDown := by
  rw [entriesOf, entriesOf, List.filter_map, List.map_map, List.map_map]
  exact List.map_congr_left fun place _ => place.entry_within component

theorem savables_eq_of_children
    (below : savablesOfAll component.children = entriesOf (placesOfAllIn [] component.children)) :
    component.savables = entriesOf (component.placesIn []) := by
  have inside : placesOfAllIn [component] component.children =
      (placesOfAllIn [] component.children).map (·.within [component]) :=
    placesOfAllIn_append [] [component] component.children
  rw [savables_eq_handDown, placesIn_eq, inside, entriesOf_cons, entriesOf_within, below]
  rfl

mutual
theorem savables_eq_entriesOf : ∀ component : Component,
    component.savables = entriesOf (component.placesIn [])
  | ⟨_, _, _, children, _⟩ => savables_eq_of_children (savablesOfAll_eq_entriesOf children)
termination_by structural component => component

theorem savablesOfAll_eq_entriesOf : ∀ forest : List Component,
    savablesOfAll forest = entriesOf (placesOfAllIn [] forest)
  | [] => rfl
  | component :: forest => by
    rw [savablesOfAll, placesOfAllIn, entriesOf_append, savables_eq_entriesOf component,
      savablesOfAll_eq_entriesOf forest]
termination_by structural forest => forest
end

end Component

namespace Forest

theorem savables_eq_map_entry (forest : Forest) :
    forest.savables = (forest.places.filter (·.component.isKept)).map Place.entry :=
  Component.savablesOfAll_eq_entriesOf forest

/-- A forest yields the entries of the places whose components are kept; each has its
    component's own title, else the nearest title of a container around it, else the name of
    its kind; and nothing else in the forest has a say in it. -/
theorem titles_are_handed_down :
    (∀ forest : Forest,
      forest.savables = (forest.places.filter (·.component.isKept)).map Place.entry) ∧
    (∀ place : Place, place.entry.component = place.component ∧
      place.entry.kindName = place.component.kind ∧
      place.Entitles place.entry.title place.entry.source) ∧
    (∀ place other : Place, place.SameTitles other →
      place.entry.title = other.entry.title ∧ place.entry.source = other.entry.source) := by
  refine ⟨savables_eq_map_entry, ?_, ?_⟩
  · intro place
    exact ⟨place.component_entry, place.kindName_entry, place.entitles_entry⟩
  · intro place other same
    exact Place.title_entry_congr same

/-- In a titled card in a titled row: a titled list with a metric in an untitled grid, and an
    alert beside the list. -/
def overview (row list alert : String) : Forest :=
  [⟨"row", none, [("title", .str row)],
    [⟨"card", none, [("title", .str "Overview")],
      [⟨"list", none, [("name", .str list)],
        [⟨"grid", none, [], [⟨"metric", none, [], [], .children⟩], .children⟩], .children⟩,
       ⟨"alert", none, [("label", .str alert)], [], .children⟩], .children⟩], .content⟩]

/-- The metric takes the title of the card, whatever row, list and alert are called. -/
theorem titles_are_handed_down_overview :
    ∃ place other : Place,
      place ∈ (overview "Left" "Runs" "Disk").places ∧ other ∈ (overview "Right" "" "CPU").places ∧
      place.SameTitles other ∧
      place.entry.title = other.entry.title ∧ place.entry.source = other.entry.source ∧
      (overview "Left" "Runs" "Disk").savables.map (fun entry => (entry.title, entry.source)) =
        [("Runs", .own), (other.entry.title, .container), ("Disk", .own)] := by
  have found : (overview "Left" "Runs" "Disk").places[4]?.isSome = true ∧
      (overview "Right" "" "CPU").places[4]?.isSome = true := ⟨rfl, rfl⟩
  obtain ⟨place, placed⟩ := Option.isSome_iff_exists.mp found.1
  obtain ⟨other, placed'⟩ := Option.isSome_iff_exists.mp found.2
  have same : place.SameTitles other := by
    cases placed
    cases placed'
    exact ⟨rfl, by decide +kernel, by decide +kernel⟩
  have alike := titles_are_handed_down.2.2 place other same
  refine ⟨place, other, List.mem_of_getElem? placed, List.mem_of_getElem? placed', same,
    alike.1, alike.2, ?_⟩
  cases placed'
  decide +kernel

end Forest
end Liveboard
