/-
  Liveboard/Component/Savable.lean
  ================================
  **What is kept when a whole forest is saved.**

  Bottom-up:

  * a component that cannot be saved is transparent: what its descendants yield
    passes through;
  * a container with something to save below it disappears, and its title goes to
    the entries below that have no title of their own;
  * any other savable component is an entry itself, followed, unless it is a
    container, by what its descendants yield.
-/
import Liveboard.Component.Basic

namespace Liveboard

/-- Where the title of an entry comes from. -/
inductive TitleSource where
  | own
  | container
  | kindName
deriving DecidableEq, Repr

/-- An entry for the library of saved components. -/
structure Savable where
  component : Component
  kindName : String
  title : String
  source : TitleSource
deriving BEq, Repr

namespace Savable

/-- Entitled by the component itself, or else by the name of its kind. -/
def ofComponent (component : Component) (kind : Kind) : Savable :=
  match component.displayTitle? with
  | some title => ⟨component, kind.name, title, .own⟩
  | none => ⟨component, kind.name, kind.name, .kindName⟩

def hasDistinctTitle (entry : Savable) : Bool := entry.source != .kindName

/-- Hand down the title of an enclosing container. -/
def inherit (title : String) (entry : Savable) : Savable :=
  if entry.hasDistinctTitle then entry else { entry with title := title, source := .container }

/-- The wire form: the component, its type and its title. -/
def wire (entry : Savable) : Json :=
  .obj [("component_data", entry.component.wire), ("component_type", .str entry.kindName),
    ("title", .str entry.title)]

end Savable

namespace Component

/-- The savable kind of a component, if it has one. -/
def savableKind? (component : Component) : Option Kind :=
  component.catalogKind?.filter Kind.isSavable

/-- What a component yields, given what its children yield. -/
def collect (component : Component) (nested : List Savable) : List Savable :=
  match component.savableKind? with
  | none => nested
  | some kind =>
    if kind.isContainer then
      if nested.isEmpty then [Savable.ofComponent component kind]
      else match component.displayTitle? with
        | none => nested
        | some title => nested.map (Savable.inherit title)
    else Savable.ofComponent component kind :: nested

mutual
/-- The entries of one tree, in document order. -/
def savables : Component → List Savable
  | ⟨kind, id, attributes, children, slot⟩ =>
    collect ⟨kind, id, attributes, children, slot⟩ (savablesOfAll children)
termination_by structural component => component

def savablesOfAll : List Component → List Savable
  | [] => []
  | component :: forest => savables component ++ savablesOfAll forest
termination_by structural forest => forest
end

theorem savablesOfAll_eq_flatMap (forest : List Component) :
    savablesOfAll forest = forest.flatMap savables := by
  induction forest with
  | nil => rfl
  | cons component forest ih => simp [savablesOfAll, ih]

end Component

/-- The entries of a forest, in document order. -/
def Forest.savables (forest : Forest) : List Savable := Component.savablesOfAll forest

end Liveboard
