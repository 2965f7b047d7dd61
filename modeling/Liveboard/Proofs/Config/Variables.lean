/-
  Liveboard/Proofs/Config/Variables.lean
  ======================================
  **What environment variables amount to.**

  Variables that stand for different leaves each put their value at its leaf.  A group is
  there, and is a table, if one of its leaves is set; otherwise it is not there.
-/
import Mathlib.Data.List.Induction
import Liveboard.Proofs.Config.Leaves
import Liveboard.Proofs.Config.Merging

namespace Liveboard.Config

open Setting

theorem Leaf.apart_path {leaf other : Leaf} (h : leaf ≠ other) :
    Apart leaf.path other.path := by
  unfold Apart
  cases leaf <;> cases other <;> first | exact absurd rfl h | decide

theorem Leaf.apart_group {leaf : Leaf} {group : Group} (h : leaf.group? ≠ some group) :
    Apart leaf.path [group.name] := by
  unfold Apart
  cases leaf <;> cases group <;> first | exact absurd rfl h | decide

namespace Environment

/-- The value that the variables give to the setting at a path. -/
def value? (environment : List (String × String)) (path : List String) : Option Setting :=
  (environment.find? fun entry => path? entry.1 == some path).map fun entry => valueOf entry.2

/-- Whether they set a leaf of a group. -/
def setsIn (environment : List (String × String)) (group : Group) : Bool :=
  group.leafNames.any fun name => (value? environment [group.name, name]).isSome

/-- Each variable that stands for a setting stands for a leaf, no two for the same one. -/
structure SetsLeaves (environment : List (String × String)) : Prop where
  leaves : ∀ entry ∈ environment, ∀ path, path? entry.1 = some path →
    ∃ leaf : Leaf, path = leaf.path
  distinct : (environment.filterMap fun entry => path? entry.1).Nodup

theorem setsIn_iff {environment : List (String × String)} {group : Group} :
    setsIn environment group = true ↔
      ∃ leaf : Leaf, leaf.group? = some group ∧ (value? environment leaf.path).isSome = true := by
  rw [setsIn, List.any_eq_true]
  constructor
  · rintro ⟨name, member, set⟩
    obtain ⟨leaf, within, rfl⟩ := Leaf.exists_of_mem_leafNames member
    exact ⟨leaf, within, by rwa [Leaf.path_of_group? within]⟩
  · rintro ⟨leaf, within, set⟩
    exact ⟨leaf.name, Leaf.name_mem_leafNames within, by rwa [← Leaf.path_of_group? within]⟩

/-! ### One variable more -/

theorem read_concat (environment : List (String × String)) (entry : String × String) :
    read (environment ++ [entry]) =
      ((path? entry.1).map fun path => (read environment).merge (nest path (valueOf entry.2))).getD
        (read environment) := by
  obtain ⟨name, text⟩ := entry
  rw [read, List.foldl_append, List.foldl_cons, List.foldl_nil, ← read]
  dsimp only
  cases path? name <;> rfl

theorem value?_concat (environment : List (String × String)) (entry : String × String)
    (path : List String) :
    value? (environment ++ [entry]) path =
      (value? environment path).or
        (if path? entry.1 = some path then some (valueOf entry.2) else none) := by
  rw [value?, List.find?_append, Option.map_or, ← value?]
  by_cases h : path? entry.1 = some path <;> simp [h]

theorem value?_eq_none {environment : List (String × String)} {path : List String}
    (h : path ∉ environment.filterMap fun entry => path? entry.1) :
    value? environment path = none := by
  rw [value?, Option.map_eq_none_iff, List.find?_eq_none]
  intro entry member named
  exact h (List.mem_filterMap.mpr ⟨entry, member, eq_of_beq named⟩)

theorem SetsLeaves.init {environment : List (String × String)} {entry : String × String}
    (h : SetsLeaves (environment ++ [entry])) : SetsLeaves environment := by
  refine ⟨fun other member => h.leaves other (List.mem_append_left _ member), ?_⟩
  have distinct := h.distinct
  rw [List.filterMap_append, List.nodup_append] at distinct
  exact distinct.1

/-- The last variable is the only one for its leaf. -/
theorem SetsLeaves.last {environment : List (String × String)} {entry : String × String}
    (h : SetsLeaves (environment ++ [entry])) {path : List String}
    (named : path? entry.1 = some path) : value? environment path = none := by
  apply value?_eq_none
  intro member
  have distinct := h.distinct
  rw [List.filterMap_append, List.nodup_append] at distinct
  exact distinct.2.2 path member path (by simp [named]) rfl

/-! ### All variables -/

/-- What variables that stand for leaves amount to. -/
structure Amounts (environment : List (String × String)) (settings : Setting) : Prop where
  table : ∃ entries, settings = .table entries
  leaf : ∀ leaf : Leaf, settings.at? leaf.path = value? environment leaf.path
  set : ∀ group : Group, setsIn environment group = true →
    ∃ entries, settings.at? [group.name] = some (.table entries)
  unset : ∀ group : Group, setsIn environment group = false → settings.at? [group.name] = none

/-- Every leaf can be reached: what is on the way to it is a table. -/
theorem Amounts.admits {environment : List (String × String)} {settings : Setting}
    (amounts : Amounts environment settings) (leaf : Leaf) : settings.Admits leaf.path := by
  obtain ⟨entries, rfl⟩ := amounts.table
  cases within : leaf.group? with
  | none =>
    rw [Leaf.path, within]
    exact ⟨entries, rfl, fun _ _ => trivial⟩
  | some group =>
    rw [Leaf.path_of_group? within]
    refine ⟨entries, rfl, ?_⟩
    intro inner found
    rw [← at?_key] at found
    cases sets : setsIn environment group with
    | true =>
      obtain ⟨more, there⟩ := amounts.set group sets
      obtain rfl := Option.some.inj (found.symm.trans there)
      exact ⟨more, rfl, fun _ _ => trivial⟩
    | false => exact absurd (found.symm.trans (amounts.unset group sets)) (by simp)

theorem amounts_nil : Amounts [] (.table []) where
  table := ⟨[], rfl⟩
  leaf leaf := by cases leaf <;> rfl
  set group h := by
    obtain ⟨leaf, -, set⟩ := setsIn_iff.mp h
    exact absurd set (by simp [value?])
  unset group _ := rfl

/-- A variable for a leaf that is not set yet. -/
theorem Amounts.merge {environment : List (String × String)} {settings : Setting}
    (amounts : Amounts environment settings) {entry : String × String} {leaf : Leaf}
    (named : path? entry.1 = some leaf.path) (fresh : value? environment leaf.path = none) :
    Amounts (environment ++ [entry]) (settings.merge (nest leaf.path (valueOf entry.2))) := by
  have admits := amounts.admits leaf
  have gives (other : Leaf) : value? (environment ++ [entry]) other.path =
      if other = leaf then some (valueOf entry.2) else value? environment other.path := by
    rw [value?_concat, named]
    by_cases same : other = leaf
    · simp [same, fresh]
    · have apart : leaf.path ≠ other.path := fun h =>
        (Leaf.apart_path (Ne.symm same)).1 (h ▸ List.prefix_refl _)
      simp [same, apart]
  refine ⟨?_, ?_, ?_, ?_⟩
  · obtain ⟨entries, rfl⟩ := amounts.table
    cases within : leaf.group? <;> simp only [Leaf.path, within] <;> exact ⟨_, merge_nest ..⟩
  · intro other
    rw [gives]
    by_cases same : other = leaf
    · subst same
      rw [if_pos rfl, at?_merge_nest_self admits ((amounts.leaf other).trans fresh)]
    · rw [if_neg same, at?_merge_nest_of_apart admits (Leaf.apart_path (Ne.symm same)),
        amounts.leaf]
  · intro group sets
    by_cases within : leaf.group? = some group
    · rw [Leaf.path_of_group? within] at admits ⊢
      exact at?_merge_nest_group admits _
    · rw [at?_merge_nest_of_apart admits (Leaf.apart_group within)]
      obtain ⟨other, inside, set⟩ := setsIn_iff.mp sets
      rw [gives, if_neg (by rintro rfl; exact within inside)] at set
      exact amounts.set group (setsIn_iff.mpr ⟨other, inside, set⟩)
  · intro group sets
    -- not even the new variable sets a leaf of this group
    have without (other : Leaf) (inside : other.group? = some group) :
        ¬ (value? (environment ++ [entry]) other.path).isSome = true := fun set => by
      rw [setsIn_iff.mpr ⟨other, inside, set⟩] at sets
      exact Bool.noConfusion sets
    have within : leaf.group? ≠ some group := fun inside =>
      without leaf inside (by rw [gives, if_pos rfl]; rfl)
    rw [at?_merge_nest_of_apart admits (Leaf.apart_group within)]
    refine amounts.unset group (Bool.eq_false_iff.mpr ?_)
    intro sets
    obtain ⟨other, inside, set⟩ := setsIn_iff.mp sets
    refine without other inside ?_
    rw [gives, if_neg (by rintro rfl; exact within inside)]
    exact set

/-- Variables that stand for different leaves set these leaves and nothing else. -/
theorem read_amounts {environment : List (String × String)} (h : SetsLeaves environment) :
    Amounts environment (read environment) := by
  induction environment using List.reverseRecOn with
  | nil => exact amounts_nil
  | append_singleton environment entry ih =>
    have before := ih h.init
    rw [read_concat]
    cases named : path? entry.1 with
    | none =>
      have same (path : List String) :
          value? (environment ++ [entry]) path = value? environment path := by
        simp [value?_concat, named]
      have sets (group : Group) : setsIn (environment ++ [entry]) group =
          setsIn environment group := by
        simp only [setsIn, same]
      exact ⟨before.table, fun leaf => (before.leaf leaf).trans (same _).symm,
        fun group set => before.set group (sets group ▸ set),
        fun group unset => before.unset group (sets group ▸ unset)⟩
    | some path =>
      obtain ⟨leaf, rfl⟩ := h.leaves entry (by simp) path named
      exact before.merge named (h.last named)

end Environment
end Liveboard.Config
