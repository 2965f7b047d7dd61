/-
  Liveboard/Component/Kind.lean
  =============================
  **The catalog of component kinds** the client knows how to display.

  Two independent properties hang off a kind: whether a component of that kind may
  be kept in the library of saved components, and whether its job is to group
  others.  Every grouping kind can be saved; layout wrappers such as `row` are
  neither.
-/

namespace Liveboard

inductive Kind where
  -- grouping
  | container | card | grid | collapsible | row | column | tabs | tab
  -- content
  | text | heading | markdown | codeBlock | metric | table | list | keyValue | timeline
  | chart | lineChart | barChart | pieChart | progress | alert | badge | image | divider
  -- interactive
  | button | input | form
deriving DecidableEq, Repr

namespace Kind

/-- The catalog, in its order. -/
def all : List Kind :=
  [container, card, grid, collapsible, row, column, tabs, tab,
   text, heading, markdown, codeBlock, metric, table, list, keyValue, timeline,
   chart, lineChart, barChart, pieChart, progress, alert, badge, image, divider,
   button, input, form]

def name : Kind → String
  | container => "container"
  | card => "card"
  | grid => "grid"
  | collapsible => "collapsible"
  | row => "row"
  | column => "column"
  | tabs => "tabs"
  | tab => "tab"
  | text => "text"
  | heading => "heading"
  | markdown => "markdown"
  | codeBlock => "code_block"
  | metric => "metric"
  | table => "table"
  | list => "list"
  | keyValue => "key_value"
  | timeline => "timeline"
  | chart => "chart"
  | lineChart => "line_chart"
  | barChart => "bar_chart"
  | pieChart => "pie_chart"
  | progress => "progress"
  | alert => "alert"
  | badge => "badge"
  | image => "image"
  | divider => "divider"
  | button => "button"
  | input => "input"
  | form => "form"

/-- Groups other components and disappears when it holds something worth saving. -/
def isContainer : Kind → Bool
  | container | card | grid | collapsible => true
  | _ => false

/-- Eligible for the library of saved components. -/
def isSavable : Kind → Bool
  | container | card | grid | collapsible
  | markdown | codeBlock | metric | table | list | keyValue | timeline
  | chart | lineChart | barChart | pieChart | progress | alert | image => true
  | row | column | tabs | tab | text | heading | badge | divider | button | input | form => false

/-- The kind of that name, if the catalog has it. -/
def ofName? (name : String) : Option Kind :=
  all.find? fun kind => kind.name == name

theorem mem_all (kind : Kind) : kind ∈ all := by
  cases kind <;> decide

/-- Every name of the catalog reads back as its kind. -/
@[simp] theorem ofName?_name (kind : Kind) : ofName? kind.name = some kind := by
  cases kind <;> decide

theorem ofName?_eq_some_iff {name : String} {kind : Kind} :
    ofName? name = some kind ↔ kind.name = name := by
  constructor
  · intro h
    simpa using List.find?_some h
  · rintro rfl
    exact ofName?_name kind

/-- Whatever groups others can be saved. -/
theorem isSavable_of_isContainer {kind : Kind} (h : kind.isContainer) : kind.isSavable := by
  cases kind <;> simp_all [isContainer, isSavable]

/-- A name that the catalog does not have. -/
structure Unknown where
  name : String
deriving DecidableEq, Repr

def Unknown.message (unknown : Unknown) : String :=
  "unknown component kind: " ++ unknown.name

def ofName (name : String) : Except Unknown Kind :=
  match ofName? name with
  | some kind => .ok kind
  | none => .error ⟨name⟩

end Kind
end Liveboard
