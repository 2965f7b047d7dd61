/-
  Liveboard/Json/Basic.lean
  =========================
  **JSON values.**

  A number is an integer of the 64-bit ranges or a finite double; the two never
  compare equal, because their texts differ.  An object is a list of fields.
  Objects that come out of `Fields.ofList` have their keys in increasing order,
  each once; a written record keeps whatever order its writer chose, and
  `canonical` brings it into that form.
-/
import Liveboard.Number.Binary64

namespace Liveboard

/-- A number as JSON distinguishes them: with or without fraction or exponent. -/
inductive Numeral where
  | integer (value : Int)
  | double (value : Number.Binary64)
deriving DecidableEq, BEq, Repr

inductive Json where
  | null
  | bool (value : Bool)
  | num (value : Numeral)
  | str (value : String)
  | arr (items : List Json)
  | obj (fields : List (String × Json))
deriving BEq, Repr

abbrev Fields := List (String × Json)

/-! ### Fields of an object -/

namespace Fields

def get? (fields : Fields) (key : String) : Option Json :=
  fields.lookup key

def contains (fields : Fields) (key : String) : Bool :=
  (get? fields key).isSome

/-- Set a key, keeping the keys in increasing order. -/
def insert (key : String) (value : Json) : Fields → Fields
  | [] => [(key, value)]
  | (k, v) :: rest =>
    if key < k then (key, value) :: (k, v) :: rest
    else if key = k then (key, value) :: rest
    else (k, v) :: insert key value rest

def erase (fields : Fields) (key : String) : Fields :=
  fields.filter fun field => field.1 != key

/-- The last value given for a key wins. -/
def ofList (entries : List (String × Json)) : Fields :=
  entries.foldl (fun fields (key, value) => insert key value fields) []

@[simp] theorem get?_nil (key : String) : get? [] key = none := rfl

theorem get?_cons (key k : String) (value : Json) (fields : Fields) :
    get? ((k, value) :: fields) key = if key = k then some value else get? fields key := by
  by_cases h : key = k
  · simp [get?, h]
  · simp [get?, List.lookup_cons, beq_false_of_ne h, h]

theorem get?_insert_self (key : String) (value : Json) (fields : Fields) :
    get? (insert key value fields) key = some value := by
  induction fields with
  | nil => simp [insert, get?_cons]
  | cons field rest ih =>
    obtain ⟨k, v⟩ := field
    simp only [insert]
    split
    · simp [get?_cons]
    · split
      · simp [get?_cons]
      · next h => simp [get?_cons, h, ih]

theorem get?_insert_of_ne {key other : String} (h : other ≠ key) (value : Json) (fields : Fields) :
    get? (insert key value fields) other = get? fields other := by
  induction fields with
  | nil => simp [insert, get?_cons, h]
  | cons field rest ih =>
    obtain ⟨k, v⟩ := field
    simp only [insert]
    split
    · simp [get?_cons, h]
    · split
      · next heq => simp [get?_cons, ← heq, h]
      · simp [get?_cons, ih]

theorem get?_erase_self (fields : Fields) (key : String) : get? (erase fields key) key = none := by
  induction fields with
  | nil => rfl
  | cons field rest ih =>
    obtain ⟨k, v⟩ := field
    simp only [erase] at ih
    by_cases hk : k = key
    · simpa [erase, hk] using ih
    · simpa [erase, hk, get?_cons, Ne.symm hk] using ih

theorem get?_erase_of_ne {key other : String} (h : other ≠ key) (fields : Fields) :
    get? (erase fields key) other = get? fields other := by
  induction fields with
  | nil => rfl
  | cons field rest ih =>
    obtain ⟨k, v⟩ := field
    simp only [erase] at ih
    by_cases hk : k = key
    · simpa [erase, hk, get?_cons, h] using ih
    · simp [erase, hk, get?_cons, ih]

end Fields

namespace Json

/-! ### Views -/

def asString? : Json → Option String
  | .str s => some s
  | _ => none

def asBool? : Json → Option Bool
  | .bool b => some b
  | _ => none

def isNull : Json → Bool
  | .null => true
  | _ => false

/-- The value under a key; only objects have any. -/
def get? : Json → String → Option Json
  | .obj fields, key => Fields.get? fields key
  | _, _ => none

def ofNat (n : Nat) : Json := .num (.integer n)

def ofOption {α : Type} (encode : α → Json) : Option α → Json
  | some a => encode a
  | none => .null

/-! ### Canonical form -/

mutual
/-- The same value with every object's keys in increasing order, each once. -/
def canonical : Json → Json
  | .arr items => .arr (canonicalItems items)
  | .obj fields => .obj (Fields.ofList (canonicalFields fields))
  | .null => .null
  | .bool b => .bool b
  | .num n => .num n
  | .str s => .str s
termination_by structural json => json

def canonicalItems : List Json → List Json
  | [] => []
  | item :: items => canonical item :: canonicalItems items
termination_by structural items => items

def canonicalFields : List (String × Json) → List (String × Json)
  | [] => []
  | (key, value) :: fields => (key, canonical value) :: canonicalFields fields
termination_by structural fields => fields
end

theorem canonicalItems_eq_map (items : List Json) : canonicalItems items = items.map canonical := by
  induction items with
  | nil => rfl
  | cons item items ih => simp [canonicalItems, ih]

theorem canonicalFields_eq_map (fields : List (String × Json)) :
    canonicalFields fields = fields.map fun field => (field.1, field.2.canonical) := by
  induction fields with
  | nil => rfl
  | cons field fields ih => simp [canonicalFields, ih]

end Json
end Liveboard
