/-
  Liveboard/Component/Forest.lean
  ===============================
  **Forests as the server sends them.**

  Entries that are no component and components of a kind outside the catalog, with
  everything below them, are dropped without an error.  The readers of single values
  agree on what a forest is: a list is one, an object is a forest of one, anything
  else is empty.
-/
import Liveboard.Component.Basic

namespace Liveboard.Component

mutual
/-- Drop every descendant of a kind outside the catalog. -/
def retainKnown : Component → Component
  | ⟨kind, id, attributes, children, slot⟩ => ⟨kind, id, attributes, keepKnown children, slot⟩
termination_by structural component => component

/-- The trees whose root has a catalog kind, each cut down to its known part. -/
def keepKnown : List Component → List Component
  | [] => []
  | component :: forest =>
    if component.isKnown then retainKnown component :: keepKnown forest else keepKnown forest
termination_by structural forest => forest
end

theorem keepKnown_eq_map (forest : List Component) :
    keepKnown forest = (forest.filter isKnown).map retainKnown := by
  induction forest with
  | nil => rfl
  | cons component forest ih =>
    simp only [keepKnown, List.filter_cons]
    split <;> simp_all

theorem kind_retainKnown (component : Component) : (retainKnown component).kind = component.kind := by
  cases component
  rfl

end Liveboard.Component

namespace Liveboard.Forest

/-- The known part of what a list of values denotes. -/
def ofItems (items : List Json) : Forest := Component.keepKnown (Component.ofItems items)

/-- The forest a value denotes where a forest is expected. -/
def ofJson : Json → Forest
  | .arr items => ofItems items
  | .obj fields => ofItems [.obj fields]
  | _ => []

def count (forest : Forest) : Nat := Component.countAll forest

end Liveboard.Forest
