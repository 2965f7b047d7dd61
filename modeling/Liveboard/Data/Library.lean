/-
  Liveboard/Data/Library.lean
  ===========================
  **The library of saved components.**

  The server keeps the library and assigns the ids; a client holds a copy of it as a
  list, newest first.
-/
import Liveboard.Component.Basic
import Liveboard.Json.Decode
import Liveboard.Json.Verdict
import Liveboard.Time.Reading

namespace Liveboard

/-- A component that the server has stored. -/
structure SavedComponent where
  id : String
  chatId : String
  component : Component
  kindName : String
  title : String
  createdAt : Option Time.Instant
deriving BEq, Repr

namespace SavedComponent

def shape : Shape :=
  [.plain "id", .spelled "chat_id" "chatId", .spelled "component_data" "componentData",
   .spelled "component_type" "componentType", .plain "title",
   .spelled "created_at" "createdAt"]

/-- The component may be of any kind: the catalog is not consulted. -/
def ofJson? (json : Json) : Option SavedComponent := do
  let record ← shape.record? json
  let id ← record.required? "id" Json.asString?
  let chatId ← record.required? "chat_id" Json.asString?
  let component ← record.required? "component_data" Component.ofJson?
  let kindName ← record.required? "component_type" Json.asString?
  let title ← record.nullable? "title" "" Json.asString?
  let createdAt ← record.defaulted? "created_at" none (some ∘ Time.Instant.ofJson?)
  some ⟨id, chatId, component, kindName, title, createdAt⟩

/-- How the decoding of the field with this name ends. -/
def judge (build : Build) (name : String) (json : Json) : Verdict :=
  match name with
  | "id" | "chat_id" | "component_type" => .ofOption json.asString?
  | "component_data" => .ofOption (Component.ofJson? json)
  | "title" => .ofNullable Json.asString? json
  | "created_at" => .ofComputed (Time.Instant.read build json)
  | _ => .accepted

def verdict (build : Build) (json : Json) : Verdict :=
  (shape.verdict (judge build) json).andThen (.ofOption (ofJson? json))

/-- The component a value denotes, unless the build panics over its timestamp. -/
def read (build : Build) (json : Json) : Computed (Option SavedComponent) :=
  (verdict build json).conclude (ofJson? json)

def wire (saved : SavedComponent) : Json :=
  .obj [("id", .str saved.id), ("chat_id", .str saved.chatId),
    ("component_data", saved.component.wire), ("component_type", .str saved.kindName),
    ("title", .str saved.title), ("created_at", Json.ofOption Time.Instant.toJson saved.createdAt)]

end SavedComponent

/-! ### The client's copy -/

abbrev Library := List SavedComponent

namespace Library

def remove (library : Library) (id : String) : Library :=
  library.filter fun saved => saved.id != id

/-- A stored component goes to the front and replaces its earlier version. -/
def put (library : Library) (saved : SavedComponent) : Library :=
  saved :: remove library saved.id

/-- New components take the place of removed ones, in front of the rest. -/
def replace (library : Library) (removed : List String) (added : List SavedComponent) : Library :=
  added ++ library.filter fun saved => !removed.contains saved.id

/-- The components that were saved in one chat. -/
def ofChat (library : Library) (chatId : String) : Library :=
  library.filter fun saved => saved.chatId == chatId

theorem mem_remove {library : Library} {id : String} {saved : SavedComponent} :
    saved ∈ library.remove id ↔ saved ∈ library ∧ saved.id ≠ id := by
  simp [remove]

theorem mem_put {library : Library} {added saved : SavedComponent} :
    saved ∈ library.put added ↔ saved = added ∨ (saved ∈ library ∧ saved.id ≠ added.id) := by
  simp [put, mem_remove]

theorem mem_replace {library : Library} {removed : List String} {added : List SavedComponent}
    {saved : SavedComponent} :
    saved ∈ library.replace removed added ↔
      saved ∈ added ∨ (saved ∈ library ∧ saved.id ∉ removed) := by
  simp [replace]

end Library
end Liveboard
