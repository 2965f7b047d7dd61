/-
  Liveboard/Proofs/Config/Merging.lean
  ====================================
  **What a path leads to after one setting is laid over another.**

  Key by key, the value of a merged table is the value of the upper table, laid over the
  value of the lower one if both have the key.  A single setting that is laid over others
  becomes the value at its own path and leaves every path apart from that one alone, as
  long as nothing but tables is in its way.
-/
import Liveboard.Proofs.Config.Tidiness

namespace Liveboard.Config.Setting

/-- The value that a path of keys leads to. -/
def at? : Setting → List String → Option Setting
  | setting, [] => some setting
  | .table entries, key :: path => (entries.lookup key).bind fun inner => inner.at? path
  | _, _ :: _ => none

theorem at?_table (entries : Entries) (key : String) (path : List String) :
    (table entries).at? (key :: path) = (entries.lookup key).bind (·.at? path) := rfl

theorem at?_key (entries : Entries) (key : String) :
    (table entries).at? [key] = entries.lookup key := by
  cases found : entries.lookup key <;> simp [at?, found]

theorem at?_of_not_table {setting : Setting} (noTable : ∀ entries, setting ≠ .table entries)
    (key : String) (path : List String) : setting.at? (key :: path) = none := by
  cases setting with
  | table entries => exact absurd rfl (noTable entries)
  | _ => rfl

theorem at?_cons_of_key {setting inner : Setting} {key : String}
    (h : setting.at? [key] = some inner) (path : List String) :
    setting.at? (key :: path) = inner.at? path := by
  cases setting with
  | table entries => rw [at?_table, ← at?_key, h, Option.bind_some]
  | _ => exact absurd h (by simp [at?])

theorem IsTidy.of_at? {setting inner : Setting} (tidy : setting.IsTidy) {key : String}
    (h : setting.at? [key] = some inner) : inner.IsTidy := by
  cases setting with
  | table entries => exact (isTidy_table_iff.mp tidy).of_lookup ((at?_key entries key).symm.trans h)
  | _ => exact absurd h (by simp [at?])

/-! ### Merging two tables -/

/-- A key of a merged table has the value of the upper table, laid over that of the lower
    one. -/
theorem lookup_mergeEntries {above : Entries} (distinct : (above.map Prod.fst).Nodup)
    (below : Entries) (key : String) :
    (mergeEntries below above).lookup key =
      Option.merge merge (below.lookup key) (above.lookup key) := by
  induction above generalizing below with
  | nil => cases h : below.lookup key <;> simp [mergeEntries, h]
  | cons first rest ih =>
    obtain ⟨k, v⟩ := first
    obtain ⟨absent, distinct⟩ := List.nodup_cons.mp distinct
    rw [mergeEntries, ih distinct]
    by_cases same : key = k
    · subst same
      have unset : rest.lookup key = none := by
        refine List.lookup_eq_none_iff.mpr ?_
        intro entry member
        exact bne_iff_ne.mpr fun named => absent (List.mem_map.mpr ⟨entry, member, named.symm⟩)
      rw [lookup_alter_self, unset]
      cases h : below.lookup key <;> simp
    · rw [lookup_alter_of_ne same, List.lookup_cons, beq_false_of_ne same]

/-! ### Settings that are read the same -/

/-- Equal, or both tables: nothing that takes a single value takes a table. -/
def Alike (one other : Setting) : Prop :=
  one = other ∨ (∃ entries, one = .table entries) ∧ ∃ entries, other = .table entries

theorem Alike.refl (setting : Setting) : Alike setting setting := .inl rfl

/-- What is laid over another value is read as if it stood alone. -/
theorem merge_alike (lower upper : Setting) : Alike (lower.merge upper) upper := by
  cases upper with
  | table above =>
    refine .inr ⟨?_, above, rfl⟩
    cases lower <;> exact ⟨_, by simp only [merge]; rfl⟩
  | _ => exact .inl (by simp only [merge])

/-- Of a default and two values laid over it, the topmost that is there is read. -/
theorem merged_alike (default : Setting) (lower upper : Option Setting) :
    Alike ((Option.merge merge (Option.merge merge (some default) lower) upper).getD default)
      ((upper.or lower).getD default) := by
  cases upper with
  | none =>
    cases lower with
    | none => exact .refl default
    | some lower => exact merge_alike default lower
  | some upper =>
    cases lower with
    | none => exact merge_alike default upper
    | some lower => exact merge_alike (default.merge lower) upper

/-! ### Laying one setting over others -/

/-- Nothing but tables is on a path. -/
def Admits : Setting → List String → Prop
  | _, [] => True
  | setting, key :: path =>
    ∃ entries, setting = .table entries ∧
      ∀ inner, entries.lookup key = some inner → inner.Admits path

/-- Neither of two paths goes on where the other ends. -/
def Apart (path other : List String) : Prop := ¬ path <+: other ∧ ¬ other <+: path

theorem apart_cons_iff {key : String} {path other : List String} :
    Apart (key :: path) (key :: other) ↔ Apart path other := by
  simp [Apart, List.cons_prefix_cons]

theorem merge_nest (entries : Entries) (key : String) (path : List String) (value : Setting) :
    (table entries).merge (nest (key :: path) value) =
      .table (alter key (fun old => old.elim (nest path value) (·.merge (nest path value)))
        entries) := by
  change (table entries).merge (table [(key, nest path value)]) = _
  rw [merge, mergeEntries, mergeEntries]
  congr 2
  funext old
  cases old <;> rfl

theorem at?_nest (path : List String) (value : Setting) : (nest path value).at? path = value := by
  induction path with
  | nil => rfl
  | cons key path ih =>
    change (table [(key, nest path value)]).at? (key :: path) = value
    rw [at?_table, List.lookup_cons_self, Option.bind_some, ih]

theorem at?_nest_of_apart {path other : List String} (apart : Apart path other)
    (value : Setting) : (nest path value).at? other = none := by
  induction path generalizing other with
  | nil => exact absurd List.nil_prefix apart.1
  | cons key path ih =>
    cases other with
    | nil => exact absurd List.nil_prefix apart.2
    | cons k other =>
      change (table [(key, nest path value)]).at? (k :: other) = none
      rw [at?_table]
      by_cases same : k = key
      · subst same
        rw [List.lookup_cons_self, Option.bind_some, ih (apart_cons_iff.mp apart)]
      · rw [List.lookup_cons, beq_false_of_ne same, List.lookup_nil, Option.bind_none]

/-- A setting laid over others that do not have its path is the value there. -/
theorem at?_merge_nest_self {setting : Setting} {path : List String} (admits : setting.Admits path)
    (unset : setting.at? path = none) (value : Setting) :
    (setting.merge (nest path value)).at? path = some value := by
  induction path generalizing setting with
  | nil => simp [at?] at unset
  | cons key path ih =>
    obtain ⟨entries, rfl, inside⟩ := admits
    rw [merge_nest, at?_table, lookup_alter_self, Option.bind_some]
    rw [at?_table] at unset
    cases found : entries.lookup key with
    | none => exact at?_nest path value
    | some inner =>
      rw [found, Option.bind_some] at unset
      exact ih (inside inner found) unset

/-- A path apart from its own leads to what it led to before. -/
theorem at?_merge_nest_of_apart {setting : Setting} {path other : List String}
    (admits : setting.Admits path) (apart : Apart path other) (value : Setting) :
    (setting.merge (nest path value)).at? other = setting.at? other := by
  induction path generalizing setting other with
  | nil => exact absurd List.nil_prefix apart.1
  | cons key path ih =>
    obtain ⟨entries, rfl, inside⟩ := admits
    cases other with
    | nil => exact absurd List.nil_prefix apart.2
    | cons k other =>
      rw [merge_nest, at?_table, at?_table]
      by_cases same : k = key
      · subst same
        rw [lookup_alter_self, Option.bind_some]
        cases found : entries.lookup k with
        | none => exact at?_nest_of_apart (apart_cons_iff.mp apart) value
        | some inner => exact ih (inside inner found) (apart_cons_iff.mp apart)
      · rw [lookup_alter_of_ne same]

/-- The table that it is put into is there. -/
theorem at?_merge_nest_group {setting : Setting} {key name : String}
    (admits : setting.Admits [key, name]) (value : Setting) :
    ∃ entries, (setting.merge (nest [key, name] value)).at? [key] = some (.table entries) := by
  obtain ⟨entries, rfl, inside⟩ := admits
  rw [merge_nest, at?_key, lookup_alter_self]
  cases found : entries.lookup key with
  | none => exact ⟨_, rfl⟩
  | some inner =>
    obtain ⟨below, rfl, -⟩ := inside inner found
    exact ⟨_, congrArg some (merge_nest below name [] value)⟩

end Liveboard.Config.Setting
