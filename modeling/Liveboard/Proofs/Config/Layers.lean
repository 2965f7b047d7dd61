/-
  Liveboard/Proofs/Config/Layers.lean
  ===================================
  **Layers of a configuration are laid over one another leaf by leaf.**

  Preferences come about exactly if every leaf has a value of the right type in the highest
  layer that sets it, and that value is the one they have.  A group that the file gives as
  a list takes its leaves from it by their order, and one that is neither a table nor a
  list is refused; either counts only while no variable sets a leaf of that group.
-/
import Liveboard.Proofs.Config.Variables

namespace Liveboard.Config

open Setting Preferences Environment

/-! ### The values that count -/

/-- The value of a leaf in the highest layer that sets it. -/
def Leaf.topmost (leaf : Leaf) (document : Setting) (environment : List (String × String)) :
    Setting :=
  ((value? environment leaf.path).or (document.at? leaf.path)).getD (default.value leaf)

/-- The list that the file gives for the group of a leaf, unless a variable sets one of the
    group. -/
def Leaf.listed? (leaf : Leaf) (document : Setting) (environment : List (String × String)) :
    Option (List Setting) :=
  leaf.group?.bind fun group =>
    if setsIn environment group then none
    else
      match document.at? [group.name] with
      | some (.list items) => some items
      | _ => none

/-- The place of a leaf in its group. -/
def Leaf.place (leaf : Leaf) : Nat := (leaf.group?.elim [] Group.leafNames).idxOf leaf.name

/-- The value of a leaf that counts: by its place where its group is a list. -/
def Leaf.counting (leaf : Leaf) (document : Setting) (environment : List (String × String)) :
    Setting :=
  match leaf.listed? document environment with
  | some items => items[leaf.place]?.getD (default.value leaf)
  | none => leaf.topmost document environment

/-- What the file gives for a group has leaves, or a variable sets one of them. -/
def Group.IsReadable (group : Group) (document : Setting)
    (environment : List (String × String)) : Prop :=
  setsIn environment group = true ∨
    ∀ value, document.at? [group.name] = some value →
      (∃ entries, value = .table entries) ∨ ∃ items, value = .list items

theorem Leaf.listed?_eq_some_iff {leaf : Leaf} {group : Group}
    (within : leaf.group? = some group) {document : Setting}
    {environment : List (String × String)} {items : List Setting} :
    leaf.listed? document environment = some items ↔
      setsIn environment group = false ∧ document.at? [group.name] = some (.list items) := by
  rw [listed?, within, Option.bind_some]
  cases setsIn environment group with
  | true => simp
  | false =>
    rw [if_neg Bool.false_ne_true]
    split
    · next found given => simp [given]
    · next noList => simpa using noList items

/-- Where its group is no list that counts, a leaf has what the highest layer sets it to. -/
theorem Leaf.counting_eq_topmost {leaf : Leaf} {document : Setting}
    {environment : List (String × String)}
    (unlisted : ∀ group items, leaf.group? = some group → setsIn environment group = false →
      document.at? [group.name] ≠ some (.list items)) :
    leaf.counting document environment = leaf.topmost document environment := by
  have none : leaf.listed? document environment = none := by
    cases within : leaf.group? with
    | none => rw [listed?, within, Option.bind_none]
    | some group =>
      refine Option.eq_none_iff_forall_ne_some.mpr ?_
      intro items found
      obtain ⟨unset, given⟩ := (listed?_eq_some_iff within).mp found
      exact unlisted group items within unset given
  rw [counting, none]

/-- Two files that differ at most in keys that are unknown. -/
structure SameLeaves (document other : Setting) : Prop where
  leaf : ∀ leaf : Leaf, document.at? leaf.path = other.at? leaf.path
  group : ∀ (group : Group) (value : Setting), (∀ entries, value ≠ .table entries) →
    (document.at? [group.name] = some value ↔ other.at? [group.name] = some value)

theorem SameLeaves.symm {document other : Setting} (same : SameLeaves document other) :
    SameLeaves other document :=
  ⟨fun leaf => (same.leaf leaf).symm, fun group value h => (same.group group value h).symm⟩

theorem SameLeaves.counting_eq {document other : Setting} (same : SameLeaves document other)
    (leaf : Leaf) (environment : List (String × String)) :
    leaf.counting document environment = leaf.counting other environment := by
  have listed : leaf.listed? document environment = leaf.listed? other environment := by
    cases within : leaf.group? with
    | none => rw [Leaf.listed?, Leaf.listed?, within, Option.bind_none, Option.bind_none]
    | some group =>
      apply Option.ext
      intro items
      rw [Leaf.listed?_eq_some_iff within, Leaf.listed?_eq_some_iff within,
        same.group group (.list items) (by simp)]
  rw [Leaf.counting, Leaf.counting, listed, Leaf.topmost, Leaf.topmost, same.leaf]

theorem SameLeaves.isReadable {document other : Setting} (same : SameLeaves document other)
    {environment : List (String × String)} {group : Group}
    (readable : group.IsReadable document environment) : group.IsReadable other environment := by
  refine readable.imp_right ?_
  intro shapes value given
  by_cases isTable : ∃ entries, value = .table entries
  · exact .inl isTable
  · have noTable : ∀ entries, value ≠ .table entries := fun entries h => isTable ⟨entries, h⟩
    exact shapes value ((same.group group value noTable).mpr given)

/-! ### Groups -/

theorem lookup_zip {names : List String} {name : String} (h : name ∈ names)
    (items : List Setting) : (names.zip items).lookup name = items[names.idxOf name]? := by
  induction names generalizing items with
  | nil => cases h
  | cons first names ih =>
    cases items with
    | nil => simp
    | cons item items =>
      rw [List.zip_cons_cons, List.lookup_cons, List.idxOf_cons]
      by_cases same : first = name
      · simp [same]
      · have inside : name ∈ names := (List.mem_cons.mp h).resolve_left (Ne.symm same)
        rw [beq_false_of_ne (Ne.symm same), beq_false_of_ne same]
        exact ih inside items

/-- A table over what the file gives for a group, if anything, and over the defaults. -/
theorem lookup_group_over (defaults : Entries) {above : Entries}
    (distinct : (above.map Prod.fst).Nodup) {lower : Option Setting}
    (tidy : ∀ value, lower = some value → value.IsTidy) :
    ∃ entries,
      Option.merge merge (Option.merge merge (some (table defaults)) lower) (some (table above)) =
        some (table entries) ∧
      ∀ name value, defaults.lookup name = some value →
        Alike ((entries.lookup name).getD value)
          (((above.lookup name).or (lower.bind (·.at? [name]))).getD value) := by
  cases lower with
  | none =>
    refine ⟨mergeEntries defaults above, congrArg some (by rw [merge]), ?_⟩
    intro name value h
    rw [lookup_mergeEntries distinct, h]
    exact merged_alike value none (above.lookup name)
  | some lower =>
    cases lower with
    | table middle =>
      have inner := (isTidy_table_iff.mp (tidy _ rfl)).distinct
      refine ⟨mergeEntries (mergeEntries defaults middle) above,
        congrArg some (by rw [merge, merge]), ?_⟩
      intro name value h
      rw [lookup_mergeEntries distinct, lookup_mergeEntries inner, h, Option.bind_some, at?_key]
      exact merged_alike value (middle.lookup name) (above.lookup name)
    | _ =>
      -- the upper table replaces what is no table, and the defaults with it
      refine ⟨above, congrArg some (by simp [merge]), ?_⟩
      intro name value _
      rw [Option.bind_some, at?_of_not_table (by simp), Option.or_none]
      exact .refl _

/-! ### All layers together -/

/-- The defaults, the file over them and the environment over both. -/
def layered (document : Setting) (environment : List (String × String)) : Setting :=
  (default.layer.merge document).merge (Environment.read environment)

section

variable {document : Entries} {environment : List (String × String)}

theorem layered_eq_table (tidy : AreTidy document) (sets : SetsLeaves environment) :
    ∃ root, layered (.table document) environment = .table root ∧
      ∀ key, root.lookup key =
        Option.merge merge (Option.merge merge (default.layer.at? [key]) (document.lookup key))
          ((Environment.read environment).at? [key]) := by
  obtain ⟨entries, read⟩ := (read_amounts sets).table
  have above := isTidy_table_iff.mp (read ▸ read_isTidy environment)
  obtain ⟨lowest, layer, -, -⟩ := default.layer_at_leaf
  refine ⟨mergeEntries (mergeEntries lowest document) entries, ?_, ?_⟩
  · rw [layered, read, layer, merge, merge]
  · intro key
    rw [lookup_mergeEntries above.distinct, lookup_mergeEntries tidy.distinct, layer, read,
      at?_key, at?_key]

theorem default_at_group (group : Group) :
    ∃ entries, default.layer.at? [group.name] = some (.table entries) ∧
      ∀ leaf : Leaf, leaf.group? = some group →
        entries.lookup leaf.name = some (default.value leaf) := by
  obtain ⟨root, layer, groups, -⟩ := default.layer_at_leaf
  obtain ⟨entries, found, leaves⟩ := groups group
  exact ⟨entries, by rw [layer, at?_key, found], leaves⟩

variable {root : Entries}
  (lookups : ∀ key, root.lookup key =
    Option.merge merge (Option.merge merge (default.layer.at? [key]) (document.lookup key))
      ((Environment.read environment).at? [key]))

include lookups

/-- Unless the file gives a group as something else than a table and no variable sets one of
    its leaves, the group is a table of the values that variables set, over the file's. -/
theorem lookup_group (sets : SetsLeaves environment) {group : Group} {defaults : Entries}
    (lowest : default.layer.at? [group.name] = some (.table defaults))
    (plain : setsIn environment group = true ∨
      ∀ value, document.lookup group.name = some value → ∃ entries, value = .table entries) :
    ∃ above : Entries, (above.map Prod.fst).Nodup ∧
      root.lookup group.name =
        Option.merge merge
          (Option.merge merge (some (.table defaults)) (document.lookup group.name))
          (some (.table above)) ∧
      ∀ leaf : Leaf, leaf.group? = some group →
        above.lookup leaf.name = value? environment leaf.path := by
  have amounts := read_amounts sets
  rw [lookups, lowest]
  cases set : setsIn environment group with
  | true =>
    obtain ⟨above, there⟩ := amounts.set group set
    have inner := isTidy_table_iff.mp ((read_isTidy environment).of_at? there)
    refine ⟨above, inner.distinct, by rw [there], ?_⟩
    intro leaf within
    rw [← amounts.leaf leaf, Leaf.path_of_group? within, at?_cons_of_key there, at?_key]
  | false =>
    -- no variable: laying an empty table over a table changes nothing
    refine ⟨[], List.nodup_nil, ?_, ?_⟩
    · rw [amounts.unset group set]
      cases given : document.lookup group.name with
      | none => simp [merge, mergeEntries]
      | some value =>
        obtain ⟨entries, rfl⟩ := plain.resolve_left (by simp [set]) value given
        simp [merge, mergeEntries]
    · intro leaf within
      refine (Option.not_isSome_iff_eq_none.mp ?_).symm
      intro there
      exact Bool.eq_false_iff.mp set (setsIn_iff.mpr ⟨leaf, within, there⟩)

/-- What the file gives for a group is the group while no variable sets one of its leaves. -/
theorem lookup_group_of_not_table (sets : SetsLeaves environment) {group : Group}
    (unset : setsIn environment group = false) {value : Setting}
    (noTable : ∀ entries, value ≠ .table entries)
    (given : document.lookup group.name = some value) : root.lookup group.name = some value := by
  obtain ⟨defaults, lowest, -⟩ := default_at_group group
  rw [lookups, lowest, given, (read_amounts sets).unset group unset, Option.merge_none_right,
    Option.merge_some_some, merge_of_not_table fun _ => .inr noTable]

/-- A readable group has for each leaf the value that counts. -/
theorem inner?_of_isReadable (tidy : AreTidy document) (sets : SetsLeaves environment)
    {group : Group} (readable : group.IsReadable (.table document) environment) :
    ∃ entries, inner? .ignored root group.name group.leafNames = some entries ∧
      ∀ leaf : Leaf, leaf.group? = some group →
        Alike ((entries.lookup leaf.name).getD (default.value leaf))
          (leaf.counting (.table document) environment) := by
  obtain ⟨defaults, lowest, initial⟩ := default_at_group group
  by_cases listed : setsIn environment group = false ∧
      ∃ items, (table document).at? [group.name] = some (.list items)
  · obtain ⟨unset, items, given⟩ := listed
    have found := lookup_group_of_not_table lookups sets unset (by simp)
      ((at?_key ..).symm.trans given)
    refine ⟨group.leafNames.zip items, by rw [inner?, setting?, found]; rfl, ?_⟩
    intro leaf within
    rw [Leaf.counting, (Leaf.listed?_eq_some_iff within).mpr ⟨unset, given⟩, Leaf.place, within,
      lookup_zip (Leaf.name_mem_leafNames within)]
    exact .refl _
  · have counts (leaf : Leaf) (within : leaf.group? = some group) :
        leaf.counting (.table document) environment =
          leaf.topmost (.table document) environment := by
      apply Leaf.counting_eq_topmost
      intro other items found unset given
      obtain rfl : group = other := Option.some.inj (within.symm.trans found)
      exact listed ⟨unset, items, given⟩
    have plain : setsIn environment group = true ∨
        ∀ value, document.lookup group.name = some value → ∃ entries, value = .table entries := by
      cases set : setsIn environment group with
      | true => exact .inl rfl
      | false =>
        right
        intro value given
        rw [← at?_key] at given
        rcases readable.resolve_left (by simp [set]) value given with isTable | ⟨items, rfl⟩
        · exact isTable
        · exact absurd ⟨set, items, given⟩ listed
    obtain ⟨above, distinct, found, values⟩ := lookup_group lookups sets lowest plain
    obtain ⟨entries, merged, leaves⟩ := lookup_group_over defaults distinct fun value given =>
      tidy.of_lookup given
    refine ⟨entries, by rw [inner?, setting?, found, merged]; rfl, ?_⟩
    intro leaf within
    rw [counts leaf within, Leaf.topmost, Leaf.path_of_group? within, at?_table,
      ← Leaf.path_of_group? within, ← values leaf within]
    exact leaves leaf.name _ (initial leaf within)

theorem inner?_of_not_isReadable (sets : SetsLeaves environment) {group : Group}
    (unreadable : ¬ group.IsReadable (.table document) environment) :
    inner? .ignored root group.name group.leafNames = none := by
  simp only [Group.IsReadable, at?_key, not_or, not_forall, not_exists] at unreadable
  obtain ⟨unset, value, given, noTable, noList⟩ := unreadable
  rw [inner?, setting?,
    lookup_group_of_not_table lookups sets (Bool.eq_false_iff.mpr unset) noTable given]
  cases value with
  | table entries => exact absurd rfl (noTable entries)
  | list items => exact absurd rfl (noList items)
  | _ => rfl

theorem capabilities_alike (sets : SetsLeaves environment) :
    Alike ((root.lookup "capabilities").getD (default.value .capabilities))
      (Leaf.capabilities.counting (.table document) environment) := by
  have value : (Environment.read environment).at? ["capabilities"] =
      value? environment ["capabilities"] := (read_amounts sets).leaf .capabilities
  have topmost : Leaf.capabilities.counting (.table document) environment =
      ((value? environment ["capabilities"]).or (document.lookup "capabilities")).getD
        (default.value .capabilities) := by
    rw [← at?_key]
    rfl
  rw [topmost, lookups, ← value]
  exact merged_alike _ _ _

end

theorem takes_iff_of_alike {one other : Setting} (alike : Alike one other)
    (preferences : Preferences) (leaf : Leaf) :
    preferences.Takes leaf one ↔ preferences.Takes leaf other := by
  rcases alike with rfl | ⟨⟨above, rfl⟩, below, rfl⟩
  · rfl
  · exact iff_of_false (fun h => leaf.not_fits_table above h.1)
      (fun h => leaf.not_fits_table below h.1)

namespace Preferences

/-- What the layers make of preferences: each leaf takes the value that counts. -/
theorem ofSetting?_layered_iff {document : Entries} {environment : List (String × String)}
    (tidy : AreTidy document) (sets : SetsLeaves environment) {preferences : Preferences} :
    ofSetting? .ignored (layered (.table document) environment) = some preferences ↔
      (∀ group : Group, group.IsReadable (.table document) environment) ∧
      ∀ leaf : Leaf, preferences.Takes leaf (leaf.counting (.table document) environment) := by
  obtain ⟨root, layers, lookups⟩ := layered_eq_table tidy sets
  rw [layers]
  by_cases readable : ∀ group : Group, group.IsReadable (.table document) environment
  · obtain ⟨groups, settled⟩ := Classical.skolem.mp fun group =>
      inner?_of_isReadable lookups tidy sets (readable group)
    have takes {leaf : Leaf} {group : Group} (within : leaf.group? = some group) :=
      takes_iff_of_alike ((settled group).2 leaf within) preferences leaf
    have top := takes_iff_of_alike (capabilities_alike lookups sets) preferences .capabilities
    rw [ofSetting?_eq_some_iff fun group => (settled group).1]
    constructor
    · rintro ⟨leaves, capabilities⟩
      refine ⟨readable, ?_⟩
      intro leaf
      cases within : leaf.group? with
      | some group => exact (takes within).mp (leaves leaf group within)
      | none =>
        obtain rfl : leaf = .capabilities := by cases leaf <;> first | rfl | cases within
        exact top.mp capabilities
    · rintro ⟨-, leaves⟩
      exact ⟨fun leaf group within => (takes within).mpr (leaves leaf),
        top.mpr (leaves .capabilities)⟩
  · obtain ⟨group, unreadable⟩ := not_forall.mp readable
    rw [ofSetting?_eq_none (inner?_of_not_isReadable lookups sets unreadable)]
    exact iff_of_false (by simp) fun h => unreadable (h.1 group)

/-- The file is a table, empty if there is no file. -/
theorem load_eq_some_iff {file : Option String} {document : Setting}
    (read : file.elim (some (.table [])) Toml.read? = some document)
    {environment : List (String × String)} (sets : SetsLeaves environment)
    {preferences : Preferences} :
    load file environment = some preferences ↔
      (∀ group : Group, group.IsReadable document environment) ∧
      ∀ leaf : Leaf, preferences.Takes leaf (leaf.counting document environment) := by
  have tables : ∃ entries, document = .table entries ∧ AreTidy entries := by
    cases file with
    | none => exact ⟨[], (Option.some.inj read).symm, keyed_nil⟩
    | some text => exact Toml.read?_isTidy read
  obtain ⟨entries, rfl, tidy⟩ := tables
  rw [← ofSetting?_layered_iff tidy sets]
  cases file with
  | none =>
    obtain rfl : [] = entries := Setting.table.inj (Option.some.inj read)
    rfl
  | some text =>
    change Toml.read? text = some (table entries) at read
    rw [load, read]
    rfl

/-- Unknown keys of the file change nothing. -/
theorem load_eq_of_sameLeaves {file other : Option String} {document fromOther : Setting}
    (read : file.elim (some (.table [])) Toml.read? = some document)
    (readOther : other.elim (some (.table [])) Toml.read? = some fromOther)
    (same : SameLeaves document fromOther) {environment : List (String × String)}
    (sets : SetsLeaves environment) : load other environment = load file environment := by
  apply Option.ext
  intro preferences
  rw [load_eq_some_iff read sets, load_eq_some_iff readOther sets]
  simp only [same.counting_eq]
  exact and_congr_left fun _ =>
    ⟨fun readable group => same.symm.isReadable (readable group),
      fun readable group => same.isReadable (readable group)⟩

/-- Preferences come about exactly if every group of the file has leaves and every leaf has a
    value of its type; then each leaf has the value that counts for it: from the environment if
    a variable sets it, else from the file if that sets it, else the default.  Other keys of the
    file do not matter. -/
theorem load_leaf_by_leaf {file : Option String} {document : Setting}
    (read : file.elim (some (.table [])) Toml.read? = some document)
    {environment : List (String × String)} (sets : SetsLeaves environment) :
    ((∃ preferences, load file environment = some preferences) ↔
      (∀ group : Group, group.IsReadable document environment) ∧
      ∀ leaf : Leaf, leaf.Fits (leaf.counting document environment)) ∧
    (∀ preferences, load file environment = some preferences →
      ∀ leaf, preferences.value leaf = leaf.counting document environment) ∧
    ∀ other fromOther, other.elim (some (.table [])) Toml.read? = some fromOther →
      SameLeaves document fromOther → load other environment = load file environment := by
  refine ⟨⟨?_, ?_⟩, ?_, ?_⟩
  · rintro ⟨preferences, loaded⟩
    obtain ⟨readable, takes⟩ := (load_eq_some_iff read sets).mp loaded
    exact ⟨readable, fun leaf => (takes leaf).1⟩
  · rintro ⟨readable, fits⟩
    obtain ⟨preferences, values⟩ := exists_of_fits fits
    refine ⟨preferences, (load_eq_some_iff read sets).mpr ⟨readable, ?_⟩⟩
    intro leaf
    exact ⟨fits leaf, values leaf⟩
  · intro preferences loaded leaf
    obtain ⟨-, takes⟩ := (load_eq_some_iff read sets).mp loaded
    exact (takes leaf).2
  · intro other fromOther readOther same
    exact load_eq_of_sameLeaves read readOther same sets

theorem eq_some_getD {read : Option Setting} (legible : read.isSome = true) :
    read = some (read.getD .empty) := by
  obtain ⟨document, rfl⟩ := Option.isSome_iff_exists.mp legible
  rfl

/-- A value of the wrong type does no harm where a variable overrides it. -/
theorem load_leaf_by_leaf_overridden :
    SetsLeaves [("UI_SESSION_SERVER__URL", "wss://y")] ∧
      ∃ document,
        Toml.read? "server.url = 5\nauth.token = \"t\"\n" = some document ∧
        ¬ Leaf.url.Fits ((document.at? Leaf.url.path).getD .empty) ∧
        load (some "server.url = 5\nauth.token = \"t\"\n")
          [("UI_SESSION_SERVER__URL", "wss://y")] =
            some { default with url := "wss://y", token := some "t" } ∧
        Leaf.url.counting document [("UI_SESSION_SERVER__URL", "wss://y")] = .text "wss://y" ∧
        Leaf.token.counting document [("UI_SESSION_SERVER__URL", "wss://y")] = .text "t" := by
  have named : path? "UI_SESSION_SERVER__URL" = some Leaf.url.path := by decide +kernel
  have sets : SetsLeaves [("UI_SESSION_SERVER__URL", "wss://y")] := by
    refine ⟨?_, by simp [named]⟩
    intro entry member path found
    obtain rfl := List.mem_singleton.mp member
    exact ⟨.url, Option.some.inj (found.symm.trans named)⟩
  have read : (some "server.url = 5\nauth.token = \"t\"\n").elim (some (.table [])) Toml.read? =
      some ((Toml.read? "server.url = 5\nauth.token = \"t\"\n").getD .empty) :=
    eq_some_getD (by decide +kernel)
  have loaded : load (some "server.url = 5\nauth.token = \"t\"\n")
      [("UI_SESSION_SERVER__URL", "wss://y")] =
        some { default with url := "wss://y", token := some "t" } := by decide +kernel
  obtain ⟨-, values, -⟩ := load_leaf_by_leaf read sets
  exact ⟨sets, _, read, by decide +kernel, loaded, (values _ loaded .url).symm,
    (values _ loaded .token).symm⟩

/-- In place of a group, a list is read by the order of the leaves, though they are not set in
    it, and a text is refused, though every leaf has its default. -/
theorem load_group_that_is_no_table :
    (∃ document preferences,
      Toml.read? "server = [\"wss://x\"]\n" = some document ∧
      (∀ leaf : Leaf, leaf.Fits (leaf.topmost document [])) ∧
      load (some "server = [\"wss://x\"]\n") [] = some preferences ∧
      preferences.value .url = .text "wss://x" ∧
      preferences.value .url ≠ Leaf.url.topmost document []) ∧
    ∃ document,
      Toml.read? "server = \"x\"\n" = some document ∧
      (∀ leaf : Leaf, leaf.Fits (leaf.topmost document [])) ∧
      load (some "server = \"x\"\n") [] = none := by
  constructor
  · have highest : text? (Leaf.url.topmost
        ((Toml.read? "server = [\"wss://x\"]\n").getD .empty) []) = some default.url := by
      decide +kernel
    refine ⟨_, { default with url := "wss://x" }, eq_some_getD (by decide +kernel),
      ?_, by decide +kernel, rfl, ?_⟩
    · intro leaf
      cases leaf <;> decide +kernel
    · intro same
      rw [← same] at highest
      exact absurd (Option.some.inj highest) (by decide)
  · refine ⟨_, eq_some_getD (by decide +kernel), ?_, by decide +kernel⟩
    intro leaf
    cases leaf <;> decide +kernel

end Preferences
end Liveboard.Config
