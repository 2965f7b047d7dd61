/-
  Liveboard/Proofs/Component/Known.lean
  =====================================
  **What is left of a forest where the catalog is consulted.**

  In the known part of a forest every component has a catalog kind, so cutting it down again
  changes nothing; and it is well formed if the forest was.  Hence a forest that was read with
  the catalog in mind is read back from what is written for it (`Forest.ofJson_written`).
-/
import Liveboard.Component.Forest
import Liveboard.Proofs.Component.RoundTrip

namespace Liveboard

namespace Component

mutual
/-- Every component below the root has a catalog kind. -/
def IsKnownBelow : Component → Prop
  | ⟨_, _, _, children, _⟩ => AreKnown children
termination_by structural component => component

/-- Every component of the forest has a catalog kind. -/
def AreKnown : List Component → Prop
  | [] => True
  | component :: forest =>
    component.isKnown = true ∧ IsKnownBelow component ∧ AreKnown forest
termination_by structural forest => forest
end

/-- Only the kind decides. -/
theorem isKnown_congr {component other : Component} (same : component.kind = other.kind) :
    component.isKnown = other.isKnown := by
  rw [isKnown, catalogKind?, same, isKnown, catalogKind?]

theorem isKnown_settled (component : Component) : component.settled.isKnown = component.isKnown :=
  isKnown_congr (by rw [settled_eq])

mutual
theorem isKnownBelow_retainKnown : ∀ component : Component, component.retainKnown.IsKnownBelow
  | ⟨_, _, _, children, _⟩ => areKnown_keepKnown children
termination_by structural component => component

theorem areKnown_keepKnown : ∀ forest : List Component, AreKnown (keepKnown forest)
  | [] => trivial
  | component :: forest => by
    rw [keepKnown]
    split
    · next known =>
      rw [isKnown_congr (kind_retainKnown component).symm] at known
      exact ⟨known, isKnownBelow_retainKnown component, areKnown_keepKnown forest⟩
    · exact areKnown_keepKnown forest
termination_by structural forest => forest
end

mutual
theorem retainKnown_eq_self : ∀ component : Component, component.IsKnownBelow →
    component.retainKnown = component
  | ⟨_, _, _, children, _⟩, known => by
    rw [retainKnown, keepKnown_eq_self children known]
termination_by structural component => component

theorem keepKnown_eq_self : ∀ forest : List Component, AreKnown forest → keepKnown forest = forest
  | [], _ => rfl
  | component :: forest, ⟨known, below, others⟩ => by
    rw [keepKnown, if_pos known, retainKnown_eq_self component below,
      keepKnown_eq_self forest others]
termination_by structural forest => forest
end

mutual
theorem isKnownBelow_settled : ∀ component : Component, component.IsKnownBelow →
    component.settled.IsKnownBelow
  | ⟨_, _, _, children, _⟩, known => areKnown_settledAll children known
termination_by structural component => component

theorem areKnown_settledAll : ∀ forest : List Component, AreKnown forest →
    AreKnown (settledAll forest)
  | [], _ => trivial
  | component :: forest, ⟨known, below, others⟩ =>
    ⟨(isKnown_settled component).trans known, isKnownBelow_settled component below,
      areKnown_settledAll forest others⟩
termination_by structural forest => forest
end

/-- Cutting children away leaves the rest of a component as unambiguous as it was. -/
theorem IsUnambiguous.retainKnown {component : Component} (unambiguous : component.IsUnambiguous) :
    component.retainKnown.IsUnambiguous := by
  obtain ⟨kind, id, attributes, children, slot⟩ := component
  obtain ⟨canonical, noKind, noId, noChildren, noContent, noSlot⟩ := unambiguous
  refine ⟨canonical, noKind, noId, noChildren, noContent, fun some => noSlot ?_⟩
  intro none
  simp only at none
  subst none
  exact some rfl

mutual
theorem isWellFormed_retainKnown : ∀ component : Component, component.IsWellFormed →
    component.retainKnown.IsWellFormed
  | ⟨_, _, _, children, _⟩, wellFormed =>
    ⟨wellFormed.1.retainKnown, areWellFormed_keepKnown children wellFormed.2⟩
termination_by structural component => component

theorem areWellFormed_keepKnown : ∀ forest : List Component, AreWellFormed forest →
    AreWellFormed (keepKnown forest)
  | [], _ => trivial
  | component :: forest, ⟨first, others⟩ => by
    rw [keepKnown]
    split
    · exact ⟨isWellFormed_retainKnown component first, areWellFormed_keepKnown forest others⟩
    · exact areWellFormed_keepKnown forest others
termination_by structural forest => forest
end

end Component

namespace Forest

open Component

/-- A forest that is read from a plain value is known and well formed. -/
theorem areKnown_ofJson (json : Json) : AreKnown (ofJson json) := by
  unfold ofJson
  split
  · exact areKnown_keepKnown _
  · exact areKnown_keepKnown _
  · trivial

theorem areWellFormed_ofItems {items : List Json} (canonical : ∀ item ∈ items, item.IsCanonical) :
    AreWellFormed (Forest.ofItems items) :=
  areWellFormed_keepKnown _
    (areWellFormed_iff.mpr (isWellFormed_of_mem_ofItems items canonical))

theorem areWellFormed_ofJson {json : Json} (canonical : json.IsCanonical) :
    AreWellFormed (ofJson json) := by
  unfold ofJson
  split
  · exact areWellFormed_ofItems (Json.isCanonical_arr_iff.mp canonical)
  · exact areWellFormed_ofItems (List.forall_mem_singleton.mpr canonical)
  · trivial

/-- Such a forest is read back from what is written, its childless components settled. -/
theorem ofJson_written {forest : Forest} (known : AreKnown forest)
    (wellFormed : AreWellFormed forest) :
    ofJson (.arr (forest.map toJson)) = settledAll forest := by
  rw [ofJson, Forest.ofItems, ofItems_map_toJson forest wellFormed,
    keepKnown_eq_self _ (areKnown_settledAll forest known)]

end Forest
end Liveboard
