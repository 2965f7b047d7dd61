/-
  Liveboard/Config/Setting.lean
  =============================
  **Values of a configuration, and how layers of them merge.**

  Two tables merge key by key, at every depth; of any other two values the upper one
  counts.
-/
import Liveboard.Json.Numeral

namespace Liveboard.Config

inductive Setting where
  | empty
  | bool (value : Bool)
  | integer (value : Int)
  /-- A number that is no integer, as it was written: no setting takes one. -/
  | float (literal : String)
  | text (value : String)
  | list (items : List Setting)
  | table (entries : List (String × Setting))
deriving Repr

abbrev Entries := List (String × Setting)

namespace Setting

/-- Set a key of a table to what `change` makes of its value. -/
def alter (key : String) (change : Option Setting → Setting) : Entries → Entries
  | [] => [(key, change none)]
  | (k, v) :: rest =>
    if k = key then (k, change (some v)) :: rest else (k, v) :: alter key change rest

mutual
/-- Lay one value over another. -/
def merge (lower : Setting) : Setting → Setting
  | .table entries =>
    match lower with
    | .table below => .table (mergeEntries below entries)
    | _ => .table entries
  | upper => upper
termination_by structural upper => upper

def mergeEntries (below : Entries) : List (String × Setting) → Entries
  | [] => below
  | (key, value) :: entries =>
    mergeEntries (alter key (fun
      | some old => merge old value
      | none => value) below) entries
termination_by structural entries => entries
end

/-- Of two values that are not both tables the upper one counts. -/
theorem merge_of_not_table {lower upper : Setting}
    (h : ∀ entries, lower ≠ .table entries ∨ ∀ above, upper ≠ .table above) :
    lower.merge upper = upper := by
  cases upper with
  | table above =>
    cases lower with
    | table below => exact absurd rfl ((h below).resolve_right fun all => all above rfl)
    | _ => simp [merge]
  | _ => simp [merge]

theorem lookup_alter_self (key : String) (change : Option Setting → Setting) (entries : Entries) :
    (alter key change entries).lookup key = some (change (entries.lookup key)) := by
  induction entries with
  | nil => simp [alter]
  | cons entry rest ih =>
    obtain ⟨k, v⟩ := entry
    by_cases h : k = key
    · simp [alter, h]
    · simp [alter, h, List.lookup_cons, beq_false_of_ne (Ne.symm h), ih]

theorem lookup_alter_of_ne {key other : String} (h : other ≠ key)
    (change : Option Setting → Setting) (entries : Entries) :
    (alter key change entries).lookup other = entries.lookup other := by
  induction entries with
  | nil => simp [alter, List.lookup_cons, beq_false_of_ne h]
  | cons entry rest ih =>
    obtain ⟨k, v⟩ := entry
    by_cases hk : k = key
    · subst hk
      simp [alter, List.lookup_cons, beq_false_of_ne h]
    · simp [alter, hk, List.lookup_cons, ih]

/-- A value under a path of keys. -/
def nest (path : List String) (value : Setting) : Setting :=
  path.foldr (fun key inner => .table [(key, inner)]) value

mutual
/-- The same value as a setting. -/
def ofJson : Json → Setting
  | .null => .empty
  | .bool b => .bool b
  | .num (.integer n) => .integer n
  | .num (.double x) => .float (Numeral.text (.double x))
  | .str s => .text s
  | .arr items => .list (ofJsonItems items)
  | .obj fields => .table (ofJsonFields fields)
termination_by structural json => json

def ofJsonItems : List Json → List Setting
  | [] => []
  | item :: items => ofJson item :: ofJsonItems items
termination_by structural items => items

def ofJsonFields : List (String × Json) → Entries
  | [] => []
  | (key, value) :: fields => (key, ofJson value) :: ofJsonFields fields
termination_by structural fields => fields
end

end Setting
end Liveboard.Config
