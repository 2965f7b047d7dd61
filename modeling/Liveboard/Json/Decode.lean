/-
  Liveboard/Json/Decode.lean
  ==========================
  **Typed records out of JSON values.**

  A record is described by a `Shape`: its fields in order, each with a name and
  perhaps a second spelling.  `Shape.record?` accepts an object, in which a field
  may stand under either spelling but not under both and other keys are ignored,
  or an array of the leading fields in order.  It returns the values found under
  the fields' names, so that what is decoded next depends neither on the spelling
  nor on the form.  `none` throughout: the value does not have the shape.
-/
import Liveboard.Json.Basic

namespace Liveboard

/-- A field of a record: its name and, if it has one, its other spelling. -/
structure FieldName where
  name : String
  alias? : Option String
deriving DecidableEq, Repr

abbrev Shape := List FieldName

namespace FieldName

def plain (name : String) : FieldName := ⟨name, none⟩
def spelled (name other : String) : FieldName := ⟨name, some other⟩

/-- The names under which the field may stand. -/
def spellings (field : FieldName) : List String := field.name :: field.alias?.toList

/-- The spellings of the field that occur among the keys. -/
def spellingsIn (field : FieldName) (fields : Fields) : List Json :=
  (Fields.get? fields field.name).toList ++
    (field.alias?.bind (Fields.get? fields)).toList

end FieldName

namespace Shape

/-- The fields of an object under their names; a field under both spellings is refused. -/
def ofFields? : Shape → Fields → Option Fields
  | [], _ => some []
  | field :: shape, fields =>
    match field.spellingsIn fields with
    | [] => ofFields? shape fields
    | [value] => (ofFields? shape fields).map ((field.name, value) :: ·)
    | _ => none

/-- The items of an array under the names of the leading fields. -/
def ofItems? (shape : Shape) (items : List Json) : Option Fields :=
  if items.length ≤ shape.length then some ((shape.map (·.name)).zip items) else none

def record? (shape : Shape) : Json → Option Fields
  | .obj fields => ofFields? shape fields
  | .arr items => ofItems? shape items
  | _ => none

end Shape

/-! ### Single fields of a record -/

namespace Fields

/-- The field must be there. -/
def required? {α : Type} (record : Fields) (key : String) (decode : Json → Option α) : Option α :=
  (get? record key).bind decode

/-- A field that is missing has the default value. -/
def defaulted? {α : Type} (record : Fields) (key : String) (default : α)
    (decode : Json → Option α) : Option α :=
  match get? record key with
  | some value => decode value
  | none => some default

/-- A field that is missing or null is absent. -/
def optional? {α : Type} (record : Fields) (key : String) (decode : Json → Option α) :
    Option (Option α) :=
  match get? record key with
  | none => some none
  | some .null => some none
  | some value => (decode value).map some

/-- A field that is missing or null has the default value. -/
def nullable? {α : Type} (record : Fields) (key : String) (default : α)
    (decode : Json → Option α) : Option α :=
  (optional? record key decode).map (·.getD default)

end Fields

namespace Json

/-- All items must decode. -/
def asList? {α : Type} (decode : Json → Option α) : Json → Option (List α)
  | .arr items => items.mapM decode
  | _ => none

/-! ### Tags

A value of an enumeration is its name as a string, or an object whose one key is
the name and whose value is empty.  What counts as empty is the reader's choice:
inside a frame an empty object does, elsewhere only null. -/

/-- Which payloads of a tag count as empty. -/
inductive Empties where
  | null
  | nullOrEmptyObject
deriving DecidableEq, Repr

def Empties.accepts : Empties → Json → Bool
  | _, .null => true
  | .nullOrEmptyObject, .obj [] => true
  | _, _ => false

def asTag? (empties : Empties) : Json → Option String
  | .str name => some name
  | .obj [(name, payload)] => if empties.accepts payload then some name else none
  | _ => none

end Json
end Liveboard
