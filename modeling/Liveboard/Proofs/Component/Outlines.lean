/-
  Liveboard/Proofs/Component/Outlines.lean
  ========================================
  **The lines of an outline.**

  An outline writes one line for each component of a forest, in document order, as deep as the
  component stands.  Kind, title and summary are written as they are, so that a newline in one
  of them breaks the line: there are as many lines as components exactly if no text that is shown
  holds one (`one_line_each_iff`).  Then the indentation of the lines tells the shape of the
  forest.
-/
import Liveboard.Component.Outline
import Liveboard.Proofs.Component.Survivors
import Liveboard.Proofs.Text.Lines

namespace Liveboard

/-! ### Shapes -/

/-- A tree of which nothing but its branches is left. -/
inductive Skeleton where
  | node (below : List Skeleton)

namespace Component

mutual
def skeleton : Component → Skeleton
  | ⟨_, _, _, children, _⟩ => .node (skeletons children)
termination_by structural component => component

def skeletons : List Component → List Skeleton
  | [] => []
  | component :: forest => skeleton component :: skeletons forest
termination_by structural forest => forest
end

end Component

/-- How deep the component stands; roots stand at depth one. -/
def Place.depth (place : Place) : Nat := place.enclosing.length + 1

namespace Skeleton

/-- A node in front of trees at their depths: those that stand deeper are below it. -/
def gather (depth : Nat) (later : List (Nat × Skeleton)) : List (Nat × Skeleton) :=
  (depth, .node ((later.takeWhile fun tree => decide (depth < tree.1)).map (·.2))) ::
    later.dropWhile fun tree => decide (depth < tree.1)

/-- The trees whose nodes stand at these depths, in document order. -/
def ofDepths (depths : List Nat) : List Skeleton := (depths.foldr gather []).map (·.2)

example : ofDepths [1, 2, 2, 1] = [.node [.node [], .node []], .node []] := rfl

variable {depth : Nat} {later : List (Nat × Skeleton)}

/-- What comes next, if anything does, stands no deeper than that. -/
def Surfaces (depth : Nat) (later : List (Nat × Skeleton)) : Prop :=
  ∀ tree ∈ later.head?, tree.1 ≤ depth

theorem takeWhile_of_surfaces (surfaces : Surfaces depth later) :
    later.takeWhile (fun tree => decide (depth < tree.1)) = [] := by
  cases later with
  | nil => rfl
  | cons tree later =>
    exact List.takeWhile_cons_of_neg (by simpa using surfaces tree rfl)

theorem dropWhile_of_surfaces (surfaces : Surfaces depth later) :
    later.dropWhile (fun tree => decide (depth < tree.1)) = later := by
  cases later with
  | nil => rfl
  | cons tree later =>
    exact List.dropWhile_cons_of_neg (by simpa using surfaces tree rfl)

/-- The trees that stand one step deeper are those below. -/
theorem gather_append (surfaces : Surfaces depth later) (below : List Skeleton) :
    gather depth (below.map (depth + 1, ·) ++ later) = (depth, .node below) :: later := by
  have deeper : ∀ tree ∈ below.map (depth + 1, ·), decide (depth < tree.1) = true := by
    intro tree mem
    obtain ⟨skeleton, -, rfl⟩ := List.mem_map.mp mem
    simp
  rw [gather, List.takeWhile_append_of_pos deeper, List.dropWhile_append_of_pos deeper,
    takeWhile_of_surfaces surfaces, dropWhile_of_surfaces surfaces, List.append_nil, List.map_map]
  simp [Function.comp_def]

end Skeleton

namespace Component

mutual
theorem foldr_gather_placesIn : ∀ (component : Component) (outer : List Component)
    {later : List (Nat × Skeleton)}, Skeleton.Surfaces (outer.length + 1) later →
    ((component.placesIn outer).map Place.depth).foldr Skeleton.gather later =
      (outer.length + 1, component.skeleton) :: later
  | ⟨kind, id, attributes, children, slot⟩, outer, later, surfaces => by
    have deeper : Skeleton.Surfaces (outer.length + 1 + 1) later :=
      fun tree first => Nat.le_succ_of_le (surfaces tree first)
    have below := foldr_gather_placesOfAllIn children
      (⟨kind, id, attributes, children, slot⟩ :: outer) deeper
    rw [placesIn, List.map_cons, List.foldr_cons, below]
    exact Skeleton.gather_append surfaces (skeletons children)
termination_by structural component => component

theorem foldr_gather_placesOfAllIn : ∀ (forest : List Component) (outer : List Component)
    {later : List (Nat × Skeleton)}, Skeleton.Surfaces (outer.length + 1) later →
    ((placesOfAllIn outer forest).map Place.depth).foldr Skeleton.gather later =
      (skeletons forest).map (outer.length + 1, ·) ++ later
  | [], _, _, _ => rfl
  | component :: forest, outer, later, surfaces => by
    have others := foldr_gather_placesOfAllIn forest outer surfaces
    have next : Skeleton.Surfaces (outer.length + 1)
        ((skeletons forest).map (outer.length + 1, ·) ++ later) := by
      cases forest with
      | nil => exact surfaces
      | cons component forest =>
        intro tree first
        cases first
        exact Nat.le_refl _
    rw [placesOfAllIn, List.map_append, List.foldr_append, others,
      foldr_gather_placesIn component outer next]
    rfl
termination_by structural forest => forest
end

/-! ### Lines -/

variable {component : Component}

/-- The texts that the line of a component shows. -/
def shown (component : Component) : List String :=
  component.kind :: (component.displayTitle?.toList ++ component.summary?.toList)

/-- No text that is shown of the component holds a newline. -/
def IsOneLine (component : Component) : Prop := ∀ text ∈ component.shown, '\n' ∉ text.toList

instance : Decidable component.IsOneLine :=
  inferInstanceAs (Decidable (∀ text ∈ component.shown, '\n' ∉ text.toList))

/-- What comes after the kind on the line of a component. -/
def details (component : Component) : List Char :=
  (component.displayTitle?.toList.flatMap fun title => " \"".toList ++ title.toList ++ ['"']) ++
    component.summary?.toList.flatMap fun summary => " = ".toList ++ summary.toList

theorem toList_headline (component : Component) :
    component.headline.toList = component.kind.toList ++ component.details := by
  rw [headline, details]
  cases component.displayTitle? <;> cases component.summary? <;> simp

theorem newline_not_mem_headline_iff : '\n' ∉ component.headline.toList ↔ component.IsOneLine := by
  rw [toList_headline, details, IsOneLine, shown]
  cases component.displayTitle? <;> cases component.summary? <;> simp

end Component

/-- The line of the component in the outline. -/
def Place.line (place : Place) : String := Component.indent place.depth ++ place.component.headline

namespace Component

mutual
theorem outlineLines_eq_map (outer : List Component) : ∀ component : Component,
    outlineLines (outer.length + 1) component = (component.placesIn outer).map Place.line
  | ⟨kind, id, attributes, children, slot⟩ => by
    rw [outlineLines, placesIn, List.map_cons, ← outlineLinesOfAll_eq_map _ children]
    rfl
termination_by structural component => component

theorem outlineLinesOfAll_eq_map (outer : List Component) : ∀ forest : List Component,
    outlineLinesOfAll (outer.length + 1) forest = (placesOfAllIn outer forest).map Place.line
  | [] => rfl
  | component :: forest => by
    rw [outlineLinesOfAll, placesOfAllIn, List.map_append, outlineLines_eq_map outer component,
      outlineLinesOfAll_eq_map outer forest]
termination_by structural forest => forest
end

theorem toList_indent (depth : Nat) : (indent depth).toList = List.replicate (2 * depth) ' ' :=
  String.toList_ofList

end Component

namespace Place

variable {place : Place}

theorem toList_line (place : Place) :
    place.line.toList =
      List.replicate (2 * place.depth) ' ' ++ place.component.kind.toList ++
        place.component.details := by
  rw [line, String.toList_append, Component.toList_indent, Component.toList_headline,
    List.append_assoc]

theorem count_newline_line (place : Place) :
    place.line.toList.count '\n' = place.component.headline.toList.count '\n' := by
  rw [line, String.toList_append, List.count_append, Component.toList_indent,
    List.count_eq_zero_of_not_mem (by simp [List.mem_replicate]), Nat.zero_add]

/-- After a kind there is one space before anything else. -/
theorem indentation_line (kind : place.component.kind.toList.head? ≠ some ' ') :
    (place.line.toList.takeWhile (· == ' ')).length / 2 = place.depth := by
  have spaces : ∀ c ∈ List.replicate (2 * place.depth) ' ', (c == ' ') = true := by
    intro c mem
    rw [List.eq_of_mem_replicate mem]
    rfl
  have short : ((place.component.kind.toList ++ place.component.details).takeWhile
      (· == ' ')).length ≤ 1 := by
    cases letters : place.component.kind.toList with
    | nil =>
      rw [List.nil_append, Component.details]
      cases place.component.displayTitle? <;> cases place.component.summary? <;> simp
    | cons c letters' =>
      have other : c ≠ ' ' := fun space => kind (by rw [letters, space]; rfl)
      simp [other]
  rw [toList_line, List.append_assoc, List.takeWhile_append_of_pos spaces, List.length_append,
    List.length_replicate]
  omega

end Place

namespace Forest

variable {forest : Forest}

/-- The lines of the outline. -/
def lines (forest : Forest) : List (List Char) := Text.lines forest.outline.toList

theorem toList_outline (forest : Forest) :
    forest.outline.toList = Text.ended (forest.places.map fun place => place.line.toList) := by
  have made : Component.outlineLinesOfAll 1 forest = forest.places.map Place.line :=
    Component.outlineLinesOfAll_eq_map [] forest
  rw [outline, made, String.toList_join, Text.ended]
  simp [List.flatMap_map]

theorem length_places (forest : Forest) : forest.places.length = forest.count :=
  Component.length_placesOfAllIn [] forest

theorem mem_nodes_iff {node : Component} :
    node ∈ forest.nodes ↔ ∃ place ∈ forest.places, place.component = node := by
  rw [← map_component_places, List.mem_map]

/-- There is a line for each component, and one for each newline in what is shown of it. -/
theorem length_lines (forest : Forest) :
    forest.lines.length =
      forest.count + (forest.nodes.flatMap (·.headline.toList)).count '\n' := by
  have newlines : ∀ places : List Place,
      (places.map fun place => place.line.toList).flatten.count '\n' =
        ((places.map (·.component)).flatMap (·.headline.toList)).count '\n' := by
    intro places
    induction places with
    | nil => rfl
    | cons place places ih =>
      rw [List.map_cons, List.flatten_cons, List.count_append, Place.count_newline_line, ih,
        List.map_cons, List.flatMap_cons, List.count_append]
  rw [lines, toList_outline, Text.length_lines_ended, List.length_map, length_places, newlines,
    map_component_places]

theorem length_lines_eq_iff :
    forest.lines.length = forest.count ↔ ∀ node ∈ forest.nodes, node.IsOneLine := by
  rw [length_lines, Nat.add_eq_left, List.count_eq_zero, List.mem_flatMap]
  constructor
  · intro free node mem
    exact Component.newline_not_mem_headline_iff.mp fun newline => free ⟨node, mem, newline⟩
  · rintro oneLine ⟨node, mem, newline⟩
    exact Component.newline_not_mem_headline_iff.mpr (oneLine node mem) newline

/-- If no text that is shown holds a newline, the lines are those of the components. -/
theorem lines_eq_map (oneLine : ∀ node ∈ forest.nodes, node.IsOneLine) :
    forest.lines = forest.places.map fun place => place.line.toList := by
  rw [lines, toList_outline]
  refine Text.lines_ended fun line mem => ?_
  obtain ⟨place, placed, rfl⟩ := List.mem_map.mp mem
  have free := Component.newline_not_mem_headline_iff.mpr
    (oneLine place.component (mem_nodes_iff.mpr ⟨place, placed, rfl⟩))
  rw [← List.count_eq_zero, Place.count_newline_line, List.count_eq_zero]
  exact free

/-- The depths of the components in document order tell the shape of the forest. -/
theorem ofDepths_places (forest : Forest) :
    Skeleton.ofDepths (forest.places.map Place.depth) = Component.skeletons forest := by
  have surfaces : Skeleton.Surfaces 1 [] := fun tree first => by cases first
  have gathered := Component.foldr_gather_placesOfAllIn forest [] surfaces
  rw [Skeleton.ofDepths, places, gathered, List.append_nil, List.map_map]
  simp [Function.comp_def]

/-- An outline consists of lines that newlines end: one for each component and one more for each
    newline in what is shown of it, so that there are as many as components exactly if no kind,
    title or summary holds a newline.  Then each component has its line, indented by two spaces
    for each level and with its kind first, and if no kind begins with a space, the indentation
    of the lines tells the shape of the forest. -/
theorem one_line_each_iff (forest : Forest) :
    forest.outline.toList = Text.ended forest.lines ∧ (∀ line ∈ forest.lines, '\n' ∉ line) ∧
    forest.lines.length =
      forest.count + (forest.nodes.flatMap (·.headline.toList)).count '\n' ∧
    (forest.lines.length = forest.count ↔ ∀ node ∈ forest.nodes, node.IsOneLine) ∧
    ((∀ node ∈ forest.nodes, node.IsOneLine) →
      (∀ (k : Nat) (place : Place), forest.places[k]? = some place →
        ∃ rest, forest.lines[k]? = some
          (List.replicate (2 * place.depth) ' ' ++ place.component.kind.toList ++ rest)) ∧
      ((∀ node ∈ forest.nodes, node.kind.toList.head? ≠ some ' ') →
        Skeleton.ofDepths (forest.lines.map fun line => (line.takeWhile (· == ' ')).length / 2) =
          Component.skeletons forest)) := by
  refine ⟨?_, Text.newline_not_mem_lines _, length_lines forest, length_lines_eq_iff,
    fun oneLine => ⟨fun k place placed => ?_, fun kinds => ?_⟩⟩
  · rw [lines, toList_outline, Text.ended_lines_ended]
  · refine ⟨place.component.details, ?_⟩
    rw [lines_eq_map oneLine, List.getElem?_map, placed, Option.map_some, Place.toList_line]
  · have depths : (forest.places.map fun place => place.line.toList).map
        (fun line => (line.takeWhile (· == ' ')).length / 2) = forest.places.map Place.depth := by
      rw [List.map_map]
      refine List.map_congr_left fun place placed => ?_
      exact Place.indentation_line (kinds _ (mem_nodes_iff.mpr ⟨place, placed, rfl⟩))
    rw [lines_eq_map oneLine, depths, ofDepths_places]

/-- A single component with a text of two lines. -/
def planForest : Forest :=
  [(Component.ofKind "markdown").withAttribute "content" (.str "# Plan\nship it")]

theorem two_lines_of_one_component :
    planForest.count = 1 ∧ planForest.lines = ["  markdown = # Plan".toList, "ship it".toList] ∧
      ¬∀ node ∈ planForest.nodes, node.IsOneLine := by
  have single : planForest.count = 1 := by decide
  have two : planForest.lines = ["  markdown = # Plan".toList, "ship it".toList] := by
    decide +kernel
  refine ⟨single, two, fun oneLine => ?_⟩
  have same := (one_line_each_iff planForest).2.2.2.1.mpr oneLine
  rw [two, single] at same
  exact absurd same (by decide)

end Forest
end Liveboard
