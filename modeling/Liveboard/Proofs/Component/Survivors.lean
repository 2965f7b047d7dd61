/-
  Liveboard/Proofs/Component/Survivors.lean
  =========================================
  **Which components survive the catalog.**

  Reading a list of values as a forest leaves out what is no component, then the roots of a
  kind outside the catalog, then, level by level, all such components below.  Seen from the
  places of the components, the ones that survive are those whose own kind and whose enclosing
  components' kinds are all known; they keep their order, their parents and their own data
  (`lineagesIn_keepKnown`), and that determines the forest that is left (`known_part_is_kept`).
-/
import Liveboard.Cli.Extract
import Liveboard.Data.Chat
import Liveboard.Proofs.Component.Known
import Liveboard.Proofs.Component.Places

namespace Liveboard

/-- The catalog has the kind of the component and of everything around it. -/
def Place.isKnown (place : Place) : Bool :=
  place.component.isKnown && place.enclosing.all Component.isKnown

namespace Component

variable {component : Component} {forest outer : List Component}

/-! ### Places that survive -/

/-- Nothing inside a component of an unknown kind is known. -/
theorem filter_isKnown_placesIn (unknown : component.isKnown = false) :
    (component.placesIn outer).filter Place.isKnown = [] := by
  rw [List.filter_eq_nil_iff]
  intro place mem known
  rw [Place.isKnown, Bool.and_eq_true, List.all_eq_true] at known
  rw [placesIn_eq] at mem
  rcases List.mem_cons.mp mem with rfl | mem
  · rw [unknown] at known
    exact Bool.false_ne_true known.1
  · have around := enclosing_suffix_placesOfAllIn _ _ place mem
    have known := known.2 component (around.subset List.mem_cons_self)
    rw [unknown] at known
    exact Bool.false_ne_true known

theorem bare_retainKnown (component : Component) : component.retainKnown.bare = component.bare := by
  cases component
  rfl

theorem children_retainKnown (component : Component) :
    component.retainKnown.children = keepKnown component.children := by
  cases component
  rfl

/-- Inside known components the known part of the forest has the lineages of its known
    places. -/
def KeepsKnown (forest : List Component) : Prop :=
  ∀ {outer outer' : List Component}, outer'.map bare = outer.map bare →
    outer.all isKnown = true →
    lineagesIn outer' (keepKnown forest) =
      ((placesOfAllIn outer forest).filter Place.isKnown).map Place.lineage

theorem keepsKnown_cons (children : KeepsKnown component.children) (others : KeepsKnown forest) :
    KeepsKnown (component :: forest) := by
  intro outer outer' same allKnown
  rw [keepKnown, placesOfAllIn, List.filter_append, List.map_append, ← others same allKnown]
  by_cases known : component.isKnown = true
  · have root : Place.isKnown ⟨component, outer⟩ = true := by
      rw [Place.isKnown, known, allKnown]
      rfl
    have same' : (component.retainKnown :: outer').map bare = (component :: outer).map bare := by
      rw [List.map_cons, List.map_cons, bare_retainKnown, same]
    have allKnown' : (component :: outer).all isKnown = true := by
      rw [List.all_cons, known, allKnown]
      rfl
    have below := children same' allKnown'
    rw [if_pos known, lineagesIn_cons, children_retainKnown, below, placesIn_eq,
      List.filter_cons, if_pos root, List.map_cons, List.map_cons, bare_retainKnown, same]
    rfl
  · rw [if_neg known, filter_isKnown_placesIn (Bool.eq_false_iff.mpr known), List.map_nil,
      List.nil_append]

mutual
theorem keepsKnown_children : ∀ component : Component, KeepsKnown component.children
  | ⟨_, _, _, children, _⟩ => keepsKnown children
termination_by structural component => component

theorem keepsKnown : ∀ forest : List Component, KeepsKnown forest
  | [] => fun _ _ => rfl
  | component :: forest => keepsKnown_cons (keepsKnown_children component) (keepsKnown forest)
termination_by structural forest => forest
end

/-! ### Size -/

mutual
theorem length_placesIn (outer : List Component) : ∀ component : Component,
    (component.placesIn outer).length = component.count
  | ⟨_, _, _, children, _⟩ => by
    rw [placesIn, List.length_cons, length_placesOfAllIn _ children, count]
termination_by structural component => component

theorem length_placesOfAllIn (outer : List Component) : ∀ forest : List Component,
    (placesOfAllIn outer forest).length = countAll forest
  | [] => rfl
  | component :: forest => by
    rw [placesOfAllIn, List.length_append, length_placesIn outer component,
      length_placesOfAllIn outer forest, countAll]
termination_by structural forest => forest
end

end Component

namespace Forest

open Component

theorem lineages_keepKnown (forest : Forest) :
    (places (keepKnown forest)).map Place.lineage =
      (forest.places.filter Place.isKnown).map Place.lineage :=
  keepsKnown forest rfl rfl

theorem count_keepKnown_le (forest : Forest) : countAll (keepKnown forest) ≤ countAll forest := by
  have lengths := congrArg List.length (lineages_keepKnown forest)
  rw [List.length_map, List.length_map] at lengths
  calc countAll (keepKnown forest) = (places (keepKnown forest)).length :=
        (length_placesOfAllIn [] _).symm
    _ = (forest.places.filter Place.isKnown).length := lengths
    _ ≤ forest.places.length := List.length_filter_le _ _
    _ = countAll forest := length_placesOfAllIn [] forest

/-- Every component of the known part has a catalog kind. -/
theorem isKnown_of_mem_nodes {forest : Forest} {node : Component}
    (mem : node ∈ nodes (keepKnown forest)) : node.isKnown = true := by
  rw [← map_component_places] at mem
  obtain ⟨place, placed, rfl⟩ := List.mem_map.mp mem
  have lineage : place.lineage ∈ (forest.places.filter Place.isKnown).map Place.lineage :=
    lineages_keepKnown forest ▸ List.mem_map_of_mem placed
  obtain ⟨before, known, same⟩ := List.mem_map.mp lineage
  have root : before.component.bare = place.component.bare := (List.cons.inj same).1
  have kind : place.component.kind = before.component.kind := (congrArg Component.kind root).symm
  rw [isKnown_congr kind]
  have known := (List.mem_filter.mp known).2
  rw [Place.isKnown, Bool.and_eq_true] at known
  exact known.1

/-! ### Readers -/

/-- What stands for the entries of a forest: the items of a list, a single object, and nothing
    for any other value. -/
def entries : Json → List Json
  | .arr items => items
  | .obj fields => [.obj fields]
  | _ => []

theorem ofJson_eq (json : Json) : ofJson json = ofItems (entries json) := by
  cases json <;> rfl

theorem forest_ofJson (json : Json) : (Content.ofJson json).forest = ofItems (entries json) := by
  cases json <;> rfl

theorem fileForest_eq (json : Json) : Cli.fileForest json = ofItems (entries json) := by
  cases json <;> rfl

theorem isCanonical_of_mem_entries {json : Json} (canonical : json.IsCanonical) :
    ∀ item ∈ entries json, item.IsCanonical := by
  cases json with
  | arr items => exact Json.isCanonical_arr_iff.mp canonical
  | obj fields => exact List.forall_mem_singleton.mpr canonical
  | _ =>
    intro item mem
    cases mem

/-- A list of values is read as the one forest whose components, in document order and with
    their lineages, are the known ones among those that the values denote.  So all of it is
    known, cutting it again changes nothing, it has no more components than were there, and it
    is read back from what is written for it; and all readers of forests read it this way. -/
theorem known_part_is_kept :
    (∀ (items : List Json) (forest : Forest), ofItems items = forest ↔
      forest.places.map Place.lineage =
        ((places (items.filterMap ofJson?)).filter Place.isKnown).map Place.lineage) ∧
    (∀ items : List Json, ∀ node ∈ (ofItems items).nodes, node.isKnown = true) ∧
    (∀ component : Component, component.retainKnown.retainKnown = component.retainKnown) ∧
    (∀ component : Component, component.retainKnown.count ≤ component.count) ∧
    (∀ items : List Json, (ofItems items).count ≤ count (items.filterMap ofJson?)) ∧
    (∀ items : List Json, (∀ item ∈ items, item.IsCanonical) →
      ofItems ((ofItems items).map toJson) = settledAll (ofItems items)) ∧
    (∀ json : Json, ofJson json = ofItems (entries json) ∧
      (Content.ofJson json).forest = ofItems (entries json) ∧
      Cli.fileForest json = ofItems (entries json)) := by
  refine ⟨?_, ?_, ?_, ?_, ?_, ?_, ?_⟩
  · intro items forest
    rw [← ofItems_eq_filterMap, ← lineages_keepKnown]
    exact ⟨fun same => same ▸ rfl, fun same => (eq_of_lineages same).symm⟩
  · intro items node mem
    exact isKnown_of_mem_nodes mem
  · intro component
    exact retainKnown_eq_self _ (isKnownBelow_retainKnown component)
  · intro component
    obtain ⟨kind, id, attributes, children, slot⟩ := component
    exact Nat.succ_le_succ (count_keepKnown_le children)
  · intro items
    rw [← ofItems_eq_filterMap]
    exact count_keepKnown_le _
  · intro items canonical
    exact ofJson_written (areKnown_keepKnown _) (areWellFormed_ofItems canonical)
  · intro json
    exact ⟨ofJson_eq json, forest_ofJson json, fileForest_eq json⟩

/-- Unknown kinds at a root and below one, a list of children with no component in it, and an
    entry that is none. -/
def crowdedText : String :=
  "[\x7b\"kind\":\"hologram\",\"children\":[\x7b\"kind\":\"metric\"\x7d]\x7d," ++
    "\x7b\"kind\":\"card\",\"content\":[" ++
      "\x7b\"kind\":\"sparkle\",\"children\":[\x7b\"kind\":\"table\"\x7d]\x7d," ++
      "\x7b\"type\":\"metric\",\"id\":3\x7d]\x7d," ++
    "\x7b\"kind\":\"row\",\"content\":[7]\x7d,42]"

theorem known_part_is_kept_crowded :
    ∃ json, Json.read? crowdedText = some json ∧
      (∀ item ∈ entries json, item.IsCanonical) ∧
      ofItems ((ofItems (entries json)).map toJson) = settledAll (ofItems (entries json)) ∧
      (ofItems (entries json)).nodes.map (fun node => (node.kind, node.slot)) =
        [("card", .content), ("metric", .children), ("row", .content)] ∧
      count ((entries json).filterMap ofJson?) = 7 := by
  have whole : (Json.read? crowdedText).map (fun json =>
      ((ofItems (entries json)).nodes.map (fun node => (node.kind, node.slot)),
        count ((entries json).filterMap ofJson?))) =
      some ([("card", .content), ("metric", .children), ("row", .content)], 7) := by
    decide +kernel
  obtain ⟨json, read, left⟩ := Option.map_eq_some_iff.mp whole
  have canonical := isCanonical_of_mem_entries (Json.isCanonical_of_read? read)
  obtain ⟨-, -, -, -, -, again, -⟩ := known_part_is_kept
  exact ⟨json, read, canonical, again _ canonical, (Prod.ext_iff.mp left).1,
    (Prod.ext_iff.mp left).2⟩

end Forest
end Liveboard
