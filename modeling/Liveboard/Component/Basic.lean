/-
  Liveboard/Component/Basic.lean
  ==============================
  **Components: the nodes of a board.**

  A component is a kind, perhaps an id, weakly typed attributes and children.  On
  the wire it is one flat object with the children under `children` or `content`;
  both are the same slot, and a component remembers which one held them so that it
  is written back the way it came.
-/
import Liveboard.Component.Kind
import Liveboard.Json.Numeral
import Liveboard.Text.Blank

namespace Liveboard

/-- The key under which the children stood. -/
inductive Slot where
  | children
  | content
deriving DecidableEq, BEq, Repr

def Slot.key : Slot → String
  | children => "children"
  | content => "content"

structure Component where
  kind : String
  id : Option String
  attributes : List (String × Json)
  children : List Component
  slot : Slot
deriving BEq, Repr

abbrev Forest := List Component

namespace Component

/-! ### Building -/

def ofKind (kind : String) : Component := ⟨kind, none, [], [], .children⟩

instance : Inhabited Component := ⟨ofKind ""⟩

def withId (component : Component) (id : String) : Component :=
  { component with id := some id }

def withAttribute (component : Component) (key : String) (value : Json) : Component :=
  { component with attributes := Fields.insert key value component.attributes }

def withChild (component child : Component) : Component :=
  { component with children := component.children ++ [child] }

/-! ### Attributes -/

def attribute? (component : Component) (key : String) : Option Json :=
  Fields.get? component.attributes key

/-- A string attribute that is not blank, trimmed. -/
def label? (component : Component) (key : String) : Option String :=
  match component.attribute? key with
  | some (.str s) => if (Text.trim s.toList).isEmpty then none else some (Text.trimmed s)
  | _ => none

def title? (component : Component) : Option String := component.label? "title"

/-- The title, else the label, else the name. -/
def displayTitle? (component : Component) : Option String :=
  component.title? <|> component.label? "label" <|> component.label? "name"

/-- The catalog's kind, if the catalog has it. -/
def catalogKind? (component : Component) : Option Kind := Kind.ofName? component.kind

def isKnown (component : Component) : Bool := component.catalogKind?.isSome

/-! ### Size -/

mutual
/-- How many components a tree has, its root included. -/
def count : Component → Nat
  | ⟨_, _, _, children, _⟩ => countAll children + 1
termination_by structural component => component

def countAll : List Component → Nat
  | [] => 0
  | component :: forest => count component + countAll forest
termination_by structural forest => forest
end

/-! ### Reading -/

/-- A string `kind`, else a string `type`, with the keys it used up removed. -/
def takeKind? (fields : Fields) : Option (String × Fields) :=
  match Fields.get? fields "kind" with
  | some (.str kind) => some (kind, Fields.erase fields "kind")
  | _ =>
    match Fields.get? fields "type" with
    | some (.str kind) => some (kind, Fields.erase (Fields.erase fields "kind") "type")
    | _ => none

/-- A string or numeric `id` is the id, a null one is none; any other value stays
    an attribute. -/
def takeId (fields : Fields) : Option String × Fields :=
  match Fields.get? fields "id" with
  | some (.str id) => (some id, Fields.erase fields "id")
  | some (.num n) => (some n.text, Fields.erase fields "id")
  | some .null => (none, Fields.erase fields "id")
  | _ => (none, fields)

/-- `children` is a slot when it is a list; null counts as no children, and any
    other value stays an attribute. -/
def dropChildren (fields : Fields) : Fields :=
  match Fields.get? fields "children" with
  | some (.arr _) => Fields.erase fields "children"
  | some .null => Fields.erase fields "children"
  | _ => fields

def holdsList (fields : Fields) (key : String) : Bool :=
  match Fields.get? fields key with
  | some (.arr _) => true
  | _ => false

/-- A component from the fields of an object and the components read from its two
    slots.  A list under `content` comes after the children, and it is the slot only
    if there were none. -/
def assemble? (fields : Fields) (children content : List Component) : Option Component := do
  let (kind, fields) ← takeKind? fields
  let (id, fields) := takeId fields
  let fields := dropChildren fields
  if holdsList fields "content" then
    some ⟨kind, id, Fields.erase fields "content", children ++ content,
      if children.isEmpty then .content else .children⟩
  else some ⟨kind, id, fields, children, .children⟩

mutual
/-- The component a value denotes: an object with a string kind.  Items of its slots
    that are none are left out; unknown kinds are kept. -/
def ofJson? : Json → Option Component
  | .obj fields => assemble? fields (listedUnder "children" fields) (listedUnder "content" fields)
  | _ => none
termination_by structural json => json

/-- The components in the list under a key. -/
def listedUnder (key : String) : List (String × Json) → List Component
  | [] => []
  | (k, .arr items) :: fields => if k = key then ofItems items else listedUnder key fields
  | _ :: fields => listedUnder key fields
termination_by structural fields => fields

def ofItems : List Json → List Component
  | [] => []
  | item :: items =>
    match ofJson? item with
    | some component => component :: ofItems items
    | none => ofItems items
termination_by structural items => items
end

/-! ### Writing -/

mutual
/-- The wire form, in wire order: kind, id, attributes, children. -/
def wire : Component → Json
  | ⟨kind, id, attributes, children, slot⟩ =>
    .obj (("kind", .str kind) ::
      (id.toList.map fun id => ("id", Json.str id)) ++ attributes ++
      match wireAll children with
      | [] => []
      | items => [(slot.key, .arr items)])
termination_by structural component => component

def wireAll : List Component → List Json
  | [] => []
  | component :: forest => wire component :: wireAll forest
termination_by structural forest => forest
end

/-- The same as a plain value: keys in increasing order, the last of equal ones. -/
def toJson (component : Component) : Json := component.wire.canonical

/-! ### Lists of components -/

theorem countAll_eq_foldr (forest : List Component) :
    countAll forest = (forest.map count).foldr Nat.add 0 := by
  induction forest with
  | nil => rfl
  | cons component forest ih => simp [countAll, ih]

theorem ofItems_eq_filterMap (items : List Json) : ofItems items = items.filterMap ofJson? := by
  induction items with
  | nil => rfl
  | cons item items ih =>
    simp only [ofItems, List.filterMap_cons]
    split <;> simp_all

theorem wireAll_eq_map (forest : List Component) : wireAll forest = forest.map wire := by
  induction forest with
  | nil => rfl
  | cons component forest ih => simp [wireAll, ih]

end Component
end Liveboard
