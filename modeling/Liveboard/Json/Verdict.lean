/-
  Liveboard/Json/Verdict.lean
  ===========================
  **How far the decoding of a record gets.**

  The fields of a record are decoded one after the other: those of an object in the order of
  their keys, those of an array in the order of the shape.  The first field that is refused
  ends the decoding, and so does the first one that makes the program panic.  Which of them
  comes first matters, and nothing else does: whatever does not panic comes to what
  `Shape.record?` and the decoders of the fields say.
-/
import Liveboard.Json.Decode
import Liveboard.Number.Overflow

namespace Liveboard

/-- How the decoding of a value ends. -/
inductive Verdict where
  | accepted
  | refused
  | panic
deriving DecidableEq, Repr

namespace Verdict

variable {α : Type}

def ofOption : Option α → Verdict
  | some _ => accepted
  | none => refused

/-- A value that is computed is accepted, whatever it is. -/
def ofComputed : Computed α → Verdict
  | .value _ => accepted
  | .panic => panic

/-- What is decoded next counts only after what was accepted. -/
def andThen : Verdict → Verdict → Verdict
  | accepted, next => next
  | verdict, _ => verdict

/-- A field in which null stands for the default. -/
def ofNullable (decode : Json → Option α) : Json → Verdict
  | .null => accepted
  | json => ofOption (decode json)

/-- The items of a list. -/
def ofItems (judge : Json → Verdict) : List Json → Verdict
  | [] => accepted
  | item :: items => (judge item).andThen (ofItems judge items)

/-- A list. -/
def ofList (judge : Json → Verdict) : Json → Verdict
  | .arr items => ofItems judge items
  | _ => refused

/-- The fields of a record as they arrive under their names; a second one of the same name is
    refused before it is decoded. -/
def ofFields (judge : String → Json → Verdict) : List String → Fields → Verdict
  | _, [] => accepted
  | seen, (name, value) :: fields =>
    if seen.contains name then refused
    else (judge name value).andThen (ofFields judge (name :: seen) fields)

/-- What a decoder comes to, given how far it gets. -/
def conclude (verdict : Verdict) (decoded : Option α) : Computed (Option α) :=
  match verdict with
  | panic => .panic
  | _ => .value decoded

end Verdict

namespace Shape

/-- The names under which the fields may stand, in increasing order, each with its field's. -/
def spellings (shape : Shape) : List (String × String) :=
  (shape.flatMap fun field => field.spellings.map (·, field.name)).mergeSort
    fun one other => one.1 ≤ other.1

/-- The fields of a record in the order in which they are decoded. -/
def arrivals (shape : Shape) : Json → Fields
  | .obj fields => shape.spellings.flatMap fun spelling =>
      (Fields.get? fields spelling.1).toList.map (spelling.2, ·)
  | .arr items => (shape.map (·.name)).zip items
  | _ => []

/-- How the decoding of the fields of a record ends.  That one is missing is noticed after it. -/
def verdict (shape : Shape) (judge : String → Json → Verdict) (json : Json) : Verdict :=
  Verdict.ofFields judge [] (shape.arrivals json)

end Shape
end Liveboard
