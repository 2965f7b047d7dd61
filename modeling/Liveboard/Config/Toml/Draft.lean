/-
  Liveboard/Config/Toml/Draft.lean
  ================================
  **A TOML document as far as it was read.**

  Every table is defined once and in one place.  What may still be added to a table hangs
  on how it came into being: a header opens it, unless it was only on the way to another
  header so far; the points of a key lead through tables that have no header, the last of
  them made by points as well.  Values are finished, inline tables among them.
-/
import Liveboard.Config.Setting

namespace Liveboard.Config.Toml

/-- How a table came into being. -/
inductive Origin where
  /-- By a header of its own. -/
  | header
  /-- On the way to the table of a header. -/
  | implied
  /-- On the way to a key, by its points. -/
  | dotted
deriving DecidableEq, Repr

inductive Draft where
  | value (setting : Setting)
  | table (origin : Origin) (entries : List (String × Draft))
deriving Repr

abbrev Drafts := List (String × Draft)

mutual
def Draft.toSetting : Draft → Setting
  | .value setting => setting
  | .table _ drafts => .table (Drafts.toEntries drafts)
termination_by structural draft => draft

/-- The entries of a table when nothing more is added. -/
def Drafts.toEntries : Drafts → Entries
  | [] => []
  | (key, draft) :: drafts => (key, draft.toSetting) :: Drafts.toEntries drafts
termination_by structural drafts => drafts
end

namespace Drafts

theorem toEntries_eq_map (drafts : Drafts) :
    drafts.toEntries = drafts.map fun (key, draft) => (key, draft.toSetting) := by
  induction drafts with
  | nil => rfl
  | cons entry rest ih =>
    obtain ⟨key, draft⟩ := entry
    simp only [toEntries, List.map_cons, ih]

/-- Set a key to what `change` makes of its entry. -/
def change? (key : String) (change : Option Draft → Option Draft) : Drafts → Option Drafts
  | [] => do some [(key, ← change none)]
  | (k, old) :: rest =>
    if k = key then do some ((k, ← change (some old)) :: rest)
    else do some ((k, old) :: (← change? key change rest))

theorem lookup_change?_self {key : String} {change : Option Draft → Option Draft}
    {entries changed : Drafts} (h : entries.change? key change = some changed) :
    change (entries.lookup key) = changed.lookup key := by
  induction entries generalizing changed with
  | nil =>
    simp only [change?, Option.bind_eq_bind, Option.bind_eq_some_iff, Option.some.injEq] at h
    obtain ⟨draft, found, rfl⟩ := h
    simp [found]
  | cons entry rest ih =>
    obtain ⟨k, old⟩ := entry
    by_cases hk : k = key
    · simp only [change?, hk, if_true, Option.bind_eq_bind, Option.bind_eq_some_iff,
        Option.some.injEq] at h
      obtain ⟨draft, found, rfl⟩ := h
      simp [hk, found]
    · simp only [change?, hk, if_false, Option.bind_eq_bind, Option.bind_eq_some_iff,
        Option.some.injEq] at h
      obtain ⟨more, found, rfl⟩ := h
      simp [List.lookup_cons, beq_false_of_ne (Ne.symm hk), ih found]

theorem change?_eq_none_iff {key : String} {change : Option Draft → Option Draft}
    {entries : Drafts} :
    entries.change? key change = none ↔ change (entries.lookup key) = none := by
  induction entries with
  | nil => cases h : change none <;> simp [change?, h]
  | cons entry rest ih =>
    obtain ⟨k, old⟩ := entry
    by_cases hk : k = key
    · cases h : change (some old) <;> simp [change?, hk, h]
    · simp only [List.lookup_cons, beq_false_of_ne (Ne.symm hk), ← ih]
      cases h : change? key change rest <;> simp [change?, hk, h]

/-- Define a key that has no value yet. -/
def assign? : List String → Setting → Drafts → Option Drafts
  | [], _, _ => none
  | [key], setting, entries =>
    entries.change? key fun
      | none => some (.value setting)
      | some _ => none
  | key :: next :: path, setting, entries =>
    entries.change? key fun
      | none => do some (.table .dotted (← assign? (next :: path) setting []))
      | some (.table .dotted inner) => do
        some (.table .dotted (← assign? (next :: path) setting inner))
      | some (.table .implied inner) =>
        if path.isEmpty then none
        else do some (.table .implied (← assign? (next :: path) setting inner))
      | some _ => none

/-- Give a table a header of its own. -/
def openHeader? : List String → Drafts → Option Drafts
  | [], _ => none
  | [key], entries =>
    entries.change? key fun
      | none => some (.table .header [])
      | some (.table .implied inner) => some (.table .header inner)
      | some _ => none
  | key :: next :: path, entries =>
    entries.change? key fun
      | none => do some (.table .implied (← openHeader? (next :: path) []))
      | some (.table origin inner) => do some (.table origin (← openHeader? (next :: path) inner))
      | some (.value _) => none

/-- Change the table at a path. -/
def within? (change : Drafts → Option Drafts) : List String → Drafts → Option Drafts
  | [], entries => change entries
  | key :: path, entries =>
    entries.change? key fun
      | some (.table origin inner) => do some (.table origin (← within? change path inner))
      | _ => none

/-- A key is defined once. -/
theorem assign?_eq_none_of_lookup {key : String} {draft : Draft} {entries : Drafts}
    (h : entries.lookup key = some draft) (setting : Setting) :
    entries.assign? [key] setting = none := by
  rw [assign?, change?_eq_none_iff, h]

end Drafts

/-- A document and the table that is open in it. -/
structure Document where
  root : Drafts
  current : List String

namespace Document

def start : Document := ⟨[], []⟩

def openTable? (document : Document) (path : List String) : Option Document := do
  some ⟨← document.root.openHeader? path, path⟩

def assign? (document : Document) (path : List String) (setting : Setting) : Option Document := do
  let root ← document.root.within? (Drafts.assign? path setting) document.current
  some { document with root := root }

end Document
end Liveboard.Config.Toml
