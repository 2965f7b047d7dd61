/-
  Liveboard/Component/Outline.lean
  ================================
  **Forests as indented text**: one line per component, two spaces per level, with
  its title in quotes and a short summary of what it shows.
-/
import Liveboard.Component.Basic
import Liveboard.Json.Writer

namespace Liveboard.Component

/-- The attributes worth showing inline; the first one present is the summary. -/
def summaryKeys : List String := ["value", "content", "text", "status"]

/-- A summary is cut after so many characters. -/
def summaryLimit : Nat := 60

def summaryText : Json → Option String
  | .str s => some s
  | .arr items => some ("[" ++ toString items.length ++ " items]")
  | .obj _ => none
  | json => some json.compact

def shorten (s : String) : String :=
  if summaryLimit < s.length then String.ofList (s.toList.take summaryLimit ++ ['…']) else s

def summary? (component : Component) : Option String :=
  (summaryKeys.findSome? component.attribute?).bind fun value => (summaryText value).map shorten

/-- What stands on the line of a component after its indentation. -/
def headline (component : Component) : String :=
  component.kind ++
    (match component.displayTitle? with
      | some title => " \"" ++ title ++ "\""
      | none => "") ++
    (match component.summary? with
      | some summary => " = " ++ summary
      | none => "")

def indent (depth : Nat) : String := String.ofList (List.replicate (2 * depth) ' ')

mutual
/-- The lines of one tree whose root stands at the given depth. -/
def outlineLines (depth : Nat) : Component → List String
  | ⟨kind, id, attributes, children, slot⟩ =>
    (indent depth ++ headline ⟨kind, id, attributes, children, slot⟩) ::
      outlineLinesOfAll (depth + 1) children
termination_by structural component => component

def outlineLinesOfAll (depth : Nat) : List Component → List String
  | [] => []
  | component :: forest => outlineLines depth component ++ outlineLinesOfAll depth forest
termination_by structural forest => forest
end

theorem outlineLinesOfAll_eq_flatMap (depth : Nat) (forest : List Component) :
    outlineLinesOfAll depth forest = forest.flatMap (outlineLines depth) := by
  induction forest with
  | nil => rfl
  | cons component forest ih => simp [outlineLinesOfAll, ih]

end Liveboard.Component

namespace Liveboard.Forest

/-- The outline of a forest, roots at depth one, every line ended by a newline. -/
def outline (forest : Forest) : String :=
  String.join ((Component.outlineLinesOfAll 1 forest).map (· ++ "\n"))

end Liveboard.Forest
