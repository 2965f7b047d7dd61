/-
  Liveboard/Proofs/Config/Tidiness.lean
  =====================================
  **No table of a configuration gives a key twice.**

  A table is a list of entries, so it could.  Both readers keep the keys of every table
  apart, at every depth, and merging two settings does so as well.
-/
import Liveboard.Config.Preferences

namespace Liveboard.Config

/-! ### Entries under keys -/

section

variable {α : Type} {P : α → Prop} {key : String} {value : α}
  {entries changed : List (String × α)}

/-- No key has two entries, and the value of each entry is as it should be. -/
structure Keyed (P : α → Prop) (entries : List (String × α)) : Prop where
  distinct : (entries.map Prod.fst).Nodup
  each : ∀ entry ∈ entries, P entry.2

/-- The entries with a value put under a key, in the place of an old one if there is any. -/
inductive Puts (key : String) (value : α) : List (String × α) → List (String × α) → Prop where
  | last : Puts key value [] [(key, value)]
  | here (old : α) (rest : List (String × α)) :
      Puts key value ((key, old) :: rest) ((key, value) :: rest)
  | later {other : String} (differs : other ≠ key) (old : α) {rest more : List (String × α)}
      (puts : Puts key value rest more) : Puts key value ((other, old) :: rest) ((other, old) :: more)

theorem keyed_nil : Keyed P [] := ⟨List.nodup_nil, by simp⟩

theorem keyed_cons_iff :
    Keyed P ((key, value) :: entries) ↔
      key ∉ entries.map Prod.fst ∧ P value ∧ Keyed P entries := by
  constructor
  · rintro ⟨distinct, each⟩
    obtain ⟨absent, distinct⟩ := List.nodup_cons.mp distinct
    obtain ⟨first, each⟩ := List.forall_mem_cons.mp each
    exact ⟨absent, first, distinct, each⟩
  · rintro ⟨absent, first, distinct, each⟩
    exact ⟨List.nodup_cons.mpr ⟨absent, distinct⟩, List.forall_mem_cons.mpr ⟨first, each⟩⟩

theorem Keyed.of_lookup (keyed : Keyed P entries) (found : entries.lookup key = some value) :
    P value := by
  obtain ⟨before, after, rfl, -⟩ := List.lookup_eq_some_iff.mp found
  exact keyed.each (key, value) (by simp)

theorem Puts.mem_keys (puts : Puts key value entries changed) {name : String}
    (member : name ∈ changed.map Prod.fst) : name = key ∨ name ∈ entries.map Prod.fst := by
  induction puts with
  | last => exact .inl (List.mem_singleton.mp member)
  | here old rest => exact .inr member
  | later differs old puts ih =>
    rcases List.mem_cons.mp member with same | member
    · exact .inr (List.mem_cons.mpr (.inl same))
    · exact (ih member).imp_right (List.mem_cons_of_mem _)

theorem Keyed.puts (keyed : Keyed P entries) (puts : Puts key value entries changed)
    (new : P value) : Keyed P changed := by
  induction puts with
  | last => exact keyed_cons_iff.mpr ⟨by simp, new, keyed_nil⟩
  | here old rest =>
    obtain ⟨absent, -, others⟩ := keyed_cons_iff.mp keyed
    exact keyed_cons_iff.mpr ⟨absent, new, others⟩
  | later differs old puts ih =>
    obtain ⟨absent, first, others⟩ := keyed_cons_iff.mp keyed
    refine keyed_cons_iff.mpr ⟨?_, first, ih others⟩
    intro member
    rcases puts.mem_keys member with same | member
    · exact differs same
    · exact absent member

end

/-! ### Settings -/

namespace Setting

/-- The keys of every table in a setting differ. -/
inductive IsTidy : Setting → Prop where
  | atom {setting : Setting} (noList : ∀ items, setting ≠ .list items)
      (noTable : ∀ entries, setting ≠ .table entries) : IsTidy setting
  | list {items : List Setting} (each : ∀ item ∈ items, IsTidy item) : IsTidy (.list items)
  | table {entries : Entries} (distinct : (entries.map Prod.fst).Nodup)
      (each : ∀ entry ∈ entries, IsTidy entry.2) : IsTidy (.table entries)

/-- The entries of such a table. -/
abbrev AreTidy (entries : Entries) : Prop := Keyed IsTidy entries

theorem isTidy_table_iff {entries : Entries} : (table entries).IsTidy ↔ AreTidy entries := by
  constructor
  · intro tidy
    cases tidy with
    | atom _ noTable => exact absurd rfl (noTable entries)
    | table distinct each => exact ⟨distinct, each⟩
  · rintro ⟨distinct, each⟩
    exact .table distinct each

@[simp] theorem bool_isTidy (b : Bool) : (bool b).IsTidy := .atom (by simp) (by simp)

@[simp] theorem integer_isTidy (n : Int) : (integer n).IsTidy := .atom (by simp) (by simp)

@[simp] theorem float_isTidy (literal : String) : (float literal).IsTidy :=
  .atom (by simp) (by simp)

@[simp] theorem text_isTidy (s : String) : (text s).IsTidy := .atom (by simp) (by simp)

theorem alter_puts (key : String) (change : Option Setting → Setting) (entries : Entries) :
    Puts key (change (entries.lookup key)) entries (alter key change entries) := by
  induction entries with
  | nil => exact .last
  | cons first rest ih =>
    obtain ⟨k, v⟩ := first
    by_cases same : k = key
    · subst same
      rw [alter, if_pos rfl, List.lookup_cons_self]
      exact .here v rest
    · rw [alter, if_neg same, List.lookup_cons, beq_false_of_ne (Ne.symm same)]
      exact .later same v ih

-- By recursion on the upper setting; the lower one changes from key to key.
mutual
theorem merge_isTidy : ∀ {upper lower : Setting}, lower.IsTidy → upper.IsTidy →
    (lower.merge upper).IsTidy
  | .table above, lower, below, upper => by
    obtain ⟨distinct, each⟩ := isTidy_table_iff.mp upper
    cases lower with
    | table entries =>
      rw [merge, isTidy_table_iff]
      exact mergeEntries_areTidy (isTidy_table_iff.mp below) each
    | _ => simpa only [merge] using upper
  | .empty, _, _, upper | .bool _, _, _, upper | .integer _, _, _, upper | .float _, _, _, upper
  | .text _, _, _, upper | .list _, _, _, upper => by simpa only [merge] using upper

theorem mergeEntries_areTidy : ∀ {above : List (String × Setting)} {below : Entries},
    AreTidy below → (∀ entry ∈ above, entry.2.IsTidy) → AreTidy (mergeEntries below above)
  | [], _, below, _ => by simpa only [mergeEntries] using below
  | (key, value) :: above, entries, below, upper => by
    obtain ⟨first, rest⟩ := List.forall_mem_cons.mp upper
    rw [mergeEntries]
    refine mergeEntries_areTidy (below.puts (alter_puts key _ entries) ?_) rest
    cases found : entries.lookup key with
    | none => exact first
    | some old => exact merge_isTidy (below.of_lookup found) first
end

theorem nest_isTidy {value : Setting} (tidy : value.IsTidy) (path : List String) :
    (nest path value).IsTidy := by
  induction path with
  | nil => exact tidy
  | cons key path ih => exact .table (by simp) (List.forall_mem_singleton.mpr ih)

end Setting

/-! ### Documents in TOML -/

namespace Toml

/-- The keys of every table in a draft differ. -/
inductive Draft.IsTidy : Draft → Prop where
  | value {setting : Setting} (tidy : setting.IsTidy) : IsTidy (.value setting)
  | table {origin : Origin} {drafts : Drafts} (distinct : (drafts.map Prod.fst).Nodup)
      (each : ∀ entry ∈ drafts, IsTidy entry.2) : IsTidy (.table origin drafts)

theorem Draft.IsTidy.toSetting {draft : Draft} (tidy : draft.IsTidy) :
    draft.toSetting.IsTidy := by
  induction tidy with
  | value tidy => exact tidy
  | table distinct each ih =>
    rw [Draft.toSetting, Drafts.toEntries_eq_map]
    refine .table ?_ ?_
    · simpa [Function.comp_def] using distinct
    · intro entry member
      obtain ⟨draft, present, rfl⟩ := List.mem_map.mp member
      exact ih draft present

namespace Drafts

abbrev AreTidy (drafts : Drafts) : Prop := Keyed Draft.IsTidy drafts

theorem isTidy_table_iff {origin : Origin} {drafts : Drafts} :
    (Draft.table origin drafts).IsTidy ↔ drafts.AreTidy := by
  constructor
  · rintro (_ | ⟨distinct, each⟩)
    exact ⟨distinct, each⟩
  · rintro ⟨distinct, each⟩
    exact .table distinct each

theorem AreTidy.toEntries {drafts : Drafts} (tidy : drafts.AreTidy) :
    Setting.AreTidy drafts.toEntries := by
  have table : (Draft.table .header drafts).IsTidy := isTidy_table_iff.mpr tidy
  exact Setting.isTidy_table_iff.mp (by simpa only [Draft.toSetting] using table.toSetting)

theorem change?_puts {key : String} {change : Option Draft → Option Draft}
    {drafts changed : Drafts} (h : drafts.change? key change = some changed) :
    ∃ draft, change (drafts.lookup key) = some draft ∧ Puts key draft drafts changed := by
  induction drafts generalizing changed with
  | nil =>
    obtain ⟨draft, made, h⟩ := Option.bind_eq_some_iff.mp h
    obtain rfl := Option.some.inj h
    exact ⟨draft, made, .last⟩
  | cons first rest ih =>
    obtain ⟨k, old⟩ := first
    by_cases same : k = key
    · subst same
      rw [Drafts.change?, if_pos rfl] at h
      obtain ⟨draft, made, h⟩ := Option.bind_eq_some_iff.mp h
      obtain rfl := Option.some.inj h
      exact ⟨draft, by rwa [List.lookup_cons_self], .here old rest⟩
    · rw [Drafts.change?, if_neg same] at h
      obtain ⟨more, made, h⟩ := Option.bind_eq_some_iff.mp h
      obtain rfl := Option.some.inj h
      obtain ⟨draft, made, puts⟩ := ih made
      rw [List.lookup_cons, beq_false_of_ne (Ne.symm same)]
      exact ⟨draft, made, .later same old puts⟩

/-- A change that makes tidy drafts of tidy ones keeps the table tidy. -/
theorem AreTidy.change? {key : String} {change : Option Draft → Option Draft}
    {drafts changed : Drafts} (tidy : drafts.AreTidy)
    (h : drafts.change? key change = some changed)
    (made : ∀ draft, (∀ old, drafts.lookup key = some old → old.IsTidy) →
      change (drafts.lookup key) = some draft → draft.IsTidy) : changed.AreTidy := by
  obtain ⟨draft, new, puts⟩ := change?_puts h
  exact tidy.puts puts (made draft (fun _ => tidy.of_lookup) new)

theorem isTidy_of_inner {origin : Origin} {inner : Option Drafts} {draft : Draft}
    (made : (inner.bind fun drafts => some (Draft.table origin drafts)) = some draft)
    (tidy : ∀ drafts, inner = some drafts → drafts.AreTidy) : draft.IsTidy := by
  obtain ⟨drafts, found, made⟩ := Option.bind_eq_some_iff.mp made
  obtain rfl := Option.some.inj made
  exact isTidy_table_iff.mpr (tidy drafts found)

theorem AreTidy.assign? {setting : Setting} (value : setting.IsTidy) :
    ∀ {path : List String} {drafts changed : Drafts}, drafts.AreTidy →
      drafts.assign? path setting = some changed → changed.AreTidy
  | [], _, _, _, h => by simp [Drafts.assign?] at h
  | [key], drafts, changed, tidy, h => by
    apply tidy.change? h
    intro draft _ made
    split at made
    · obtain rfl := Option.some.inj made
      exact .value value
    · exact absurd made (by simp)
  | key :: next :: path, drafts, changed, tidy, h => by
    apply tidy.change? h
    intro draft old made
    split at made
    · exact isTidy_of_inner made fun _ => AreTidy.assign? value keyed_nil
    · next inner found =>
      have inside := isTidy_table_iff.mp (old _ found)
      exact isTidy_of_inner made fun _ => AreTidy.assign? value inside
    · next inner found =>
      have inside := isTidy_table_iff.mp (old _ found)
      split at made
      · exact absurd made (by simp)
      · exact isTidy_of_inner made fun _ => AreTidy.assign? value inside
    · exact absurd made (by simp)

theorem AreTidy.openHeader? :
    ∀ {path : List String} {drafts changed : Drafts}, drafts.AreTidy →
      drafts.openHeader? path = some changed → changed.AreTidy
  | [], _, _, _, h => by simp [Drafts.openHeader?] at h
  | [key], drafts, changed, tidy, h => by
    apply tidy.change? h
    intro draft old made
    split at made
    · obtain rfl := Option.some.inj made
      exact isTidy_table_iff.mpr keyed_nil
    · next inner found =>
      obtain rfl := Option.some.inj made
      exact isTidy_table_iff.mpr (isTidy_table_iff.mp (old _ found))
    · exact absurd made (by simp)
  | key :: next :: path, drafts, changed, tidy, h => by
    apply tidy.change? h
    intro draft old made
    split at made
    · exact isTidy_of_inner made fun _ => AreTidy.openHeader? keyed_nil
    · next origin inner found =>
      have inside := isTidy_table_iff.mp (old _ found)
      exact isTidy_of_inner made fun _ => AreTidy.openHeader? inside
    · exact absurd made (by simp)

theorem AreTidy.within? {change : Drafts → Option Drafts}
    (kept : ∀ {inner changed : Drafts}, inner.AreTidy → change inner = some changed →
      changed.AreTidy) :
    ∀ {path : List String} {drafts changed : Drafts}, drafts.AreTidy →
      drafts.within? change path = some changed → changed.AreTidy
  | [], _, _, tidy, h => kept tidy h
  | key :: path, drafts, changed, tidy, h => by
    apply tidy.change? h
    intro draft old made
    split at made
    · next origin inner found =>
      have inside := isTidy_table_iff.mp (old _ found)
      exact isTidy_of_inner made fun _ => AreTidy.within? kept inside
    · exact absurd made (by simp)

end Drafts

theorem inRange?_isTidy {n : Int} {value : Setting} (h : inRange? n = some value) :
    value.IsTidy := by
  rw [inRange?] at h
  split at h
  · obtain rfl := Option.some.inj h
    exact Setting.integer_isTidy n
  · exact absurd h (by simp)

theorem decimalNumber?_isTidy {cs : List Char} {value : Setting}
    (h : decimalNumber? cs = some value) : value.IsTidy := by
  rw [decimalNumber?] at h
  obtain ⟨isNegative, unsigned⟩ := splitSign cs
  dsimp only at h
  split at h
  · exact inRange?_isTidy h
  · split at h
    · obtain rfl := Option.some.inj h
      exact Setting.float_isTidy _
    · simp only [Option.bind_eq_bind, Option.bind_eq_some_iff] at h
      obtain ⟨size, -, h⟩ := h
      split at h
      · exact absurd h (by simp)
      · obtain rfl := Option.some.inj h
        exact Setting.float_isTidy _

theorem scalar?_isTidy {cs : List Char} {value : Setting} (h : scalar? cs = some value) :
    value.IsTidy := by
  rw [scalar?.eq_def] at h
  split at h
  · obtain rfl := Option.some.inj h
    exact Setting.bool_isTidy true
  · obtain rfl := Option.some.inj h
    exact Setting.bool_isTidy false
  · obtain ⟨digits, -, h⟩ := Option.bind_eq_some_iff.mp h
    exact inRange?_isTidy h
  · obtain ⟨digits, -, h⟩ := Option.bind_eq_some_iff.mp h
    exact inRange?_isTidy h
  · obtain ⟨digits, -, h⟩ := Option.bind_eq_some_iff.mp h
    exact inRange?_isTidy h
  · exact decimalNumber?_isTidy h

-- By recursion on the fuel; an inline table is tidy as far as it was read.
mutual
theorem readValue_isTidy : ∀ {fuel room : Nat} {cs rest : List Char} {value : Setting},
    readValue fuel room cs = some (value, rest) → value.IsTidy
  | 0, _, _, _, _, h => by simp [readValue] at h
  | fuel + 1, room, cs, rest, value, h => by
    rw [readValue.eq_def] at h
    dsimp only at h
    split at h
    · obtain ⟨⟨s, left⟩, -, read⟩ := Option.map_eq_some_iff.mp h
      obtain ⟨rfl, rfl⟩ := Prod.mk.inj read
      exact Setting.text_isTidy s
    · obtain ⟨⟨s, left⟩, -, read⟩ := Option.map_eq_some_iff.mp h
      obtain ⟨rfl, rfl⟩ := Prod.mk.inj read
      exact Setting.text_isTidy s
    · split at h
      · exact absurd h (by simp)
      · obtain ⟨⟨items, left⟩, found, read⟩ := Option.map_eq_some_iff.mp h
        obtain ⟨rfl, rfl⟩ := Prod.mk.inj read
        exact .list (readItems_isTidy found)
    · split at h
      · exact absurd h (by simp)
      · split at h
        · obtain ⟨rfl, rfl⟩ := Prod.mk.inj (Option.some.inj h)
          exact Setting.isTidy_table_iff.mpr keyed_nil
        · obtain ⟨⟨drafts, left⟩, found, read⟩ := Option.map_eq_some_iff.mp h
          obtain ⟨rfl, rfl⟩ := Prod.mk.inj read
          have tidy := readEntries_areTidy keyed_nil found
          exact Setting.isTidy_table_iff.mpr tidy.toEntries
    · obtain ⟨scalar, found, read⟩ := Option.bind_eq_some_iff.mp h
      obtain ⟨rfl, rfl⟩ := Prod.mk.inj (Option.some.inj read)
      exact scalar?_isTidy found

theorem readItems_isTidy : ∀ {fuel room : Nat} {cs rest : List Char} {items : List Setting},
    readItems fuel room cs = some (items, rest) → ∀ item ∈ items, item.IsTidy
  | 0, _, _, _, _, h => by simp [readItems] at h
  | fuel + 1, room, cs, rest, items, h => by
    rw [readItems.eq_def] at h
    dsimp only at h
    split at h
    · obtain ⟨rfl, rfl⟩ := Prod.mk.inj (Option.some.inj h)
      simp
    · obtain ⟨⟨item, left⟩, first, h⟩ := Option.bind_eq_some_iff.mp h
      have tidy := readValue_isTidy first
      dsimp only at h
      split at h
      · obtain ⟨⟨more, left⟩, found, read⟩ := Option.bind_eq_some_iff.mp h
        obtain ⟨rfl, rfl⟩ := Prod.mk.inj (Option.some.inj read)
        exact List.forall_mem_cons.mpr ⟨tidy, readItems_isTidy found⟩
      · obtain ⟨rfl, rfl⟩ := Prod.mk.inj (Option.some.inj h)
        exact List.forall_mem_singleton.mpr tidy
      · exact absurd h (by simp)

theorem readEntries_areTidy : ∀ {fuel room : Nat} {drafts found : Drafts} {cs rest : List Char},
    drafts.AreTidy → readEntries fuel room drafts cs = some (found, rest) → found.AreTidy
  | 0, _, _, _, _, _, _, h => by simp [readEntries] at h
  | fuel + 1, room, drafts, found, cs, rest, tidy, h => by
    rw [readEntries.eq_def] at h
    obtain ⟨⟨path, left⟩, -, h⟩ := Option.bind_eq_some_iff.mp h
    dsimp only at h
    split at h
    · obtain ⟨⟨value, left⟩, read, h⟩ := Option.bind_eq_some_iff.mp h
      obtain ⟨more, assigned, h⟩ := Option.bind_eq_some_iff.mp h
      have kept := Drafts.AreTidy.assign? (readValue_isTidy read) tidy assigned
      dsimp only at h
      split at h
      · exact readEntries_areTidy kept h
      · obtain ⟨rfl, rfl⟩ := Prod.mk.inj (Option.some.inj h)
        exact kept
      · exact absurd h (by simp)
    · exact absurd h (by simp)
end

theorem readHeader_areTidy {fuel : Nat} {document opened : Document} {cs rest : List Char}
    (tidy : document.root.AreTidy) (h : readHeader fuel document cs = some (opened, rest)) :
    opened.root.AreTidy := by
  obtain ⟨⟨path, left⟩, -, h⟩ := Option.bind_eq_some_iff.mp h
  dsimp only at h
  split at h
  · obtain ⟨found, made, read⟩ := Option.bind_eq_some_iff.mp h
    obtain ⟨rfl, rfl⟩ := Prod.mk.inj (Option.some.inj read)
    obtain ⟨root, headed, made⟩ := Option.bind_eq_some_iff.mp made
    obtain rfl := Option.some.inj made
    exact tidy.openHeader? headed
  · exact absurd h (by simp)

theorem readAssignment_areTidy {fuel : Nat} {document changed : Document} {cs rest : List Char}
    (tidy : document.root.AreTidy)
    (h : readAssignment fuel document cs = some (changed, rest)) : changed.root.AreTidy := by
  obtain ⟨⟨path, left⟩, -, h⟩ := Option.bind_eq_some_iff.mp h
  dsimp only at h
  split at h
  · obtain ⟨⟨value, left⟩, read, h⟩ := Option.bind_eq_some_iff.mp h
    obtain ⟨found, made, h⟩ := Option.bind_eq_some_iff.mp h
    obtain ⟨rfl, rfl⟩ := Prod.mk.inj (Option.some.inj h)
    obtain ⟨root, inside, made⟩ := Option.bind_eq_some_iff.mp made
    obtain rfl := Option.some.inj made
    exact tidy.within? (Drafts.AreTidy.assign? (readValue_isTidy read)) inside
  · exact absurd h (by simp)

theorem readDocument_areTidy : ∀ {fuel : Nat} {document found : Document} {cs : List Char},
    document.root.AreTidy → readDocument fuel document cs = some found → found.root.AreTidy
  | 0, _, _, _, _, h => by simp [readDocument] at h
  | fuel + 1, document, found, cs, tidy, h => by
    rw [readDocument.eq_def] at h
    dsimp only at h
    split at h
    · obtain rfl := Option.some.inj h
      exact tidy
    · obtain ⟨⟨opened, left⟩, header, h⟩ := Option.bind_eq_some_iff.mp h
      obtain ⟨next, -, h⟩ := Option.bind_eq_some_iff.mp h
      exact readDocument_areTidy (readHeader_areTidy tidy header) h
    · obtain ⟨⟨changed, left⟩, assignment, h⟩ := Option.bind_eq_some_iff.mp h
      obtain ⟨next, -, h⟩ := Option.bind_eq_some_iff.mp h
      exact readDocument_areTidy (readAssignment_areTidy tidy assignment) h

/-- What a document denotes is a table that gives no key twice, at any depth. -/
theorem read?_isTidy {text : String} {document : Setting} (h : read? text = some document) :
    ∃ entries, document = .table entries ∧ Setting.AreTidy entries := by
  obtain ⟨found, read, h⟩ := Option.bind_eq_some_iff.mp h
  obtain rfl := Option.some.inj h
  exact ⟨_, rfl, (readDocument_areTidy keyed_nil read).toEntries⟩

end Toml

/-! ### Environment variables -/

namespace Environment

open Setting (AreTidy isTidy_table_iff)

theorem plain_isTidy (cs : List Char) : (plain cs).IsTidy := by
  rw [plain]
  split
  · exact Setting.float_isTidy _
  · split
    · exact Setting.integer_isTidy _
    · exact Setting.text_isTidy _

mutual
theorem readValue_isTidy : ∀ {fuel : Nat} {cs rest : List Char} {value : Setting},
    readValue fuel cs = some (value, rest) → value.IsTidy
  | 0, _, _, _, h => by simp [readValue] at h
  | fuel + 1, cs, rest, value, h => by
    rw [readValue.eq_def] at h
    dsimp only at h
    split at h
    · obtain ⟨⟨entries, left⟩, found, read⟩ := Option.bind_eq_some_iff.mp h
      obtain ⟨rfl, rfl⟩ := Prod.mk.inj (Option.some.inj read)
      exact isTidy_table_iff.mpr (readEntries_areTidy keyed_nil found)
    · obtain ⟨⟨items, left⟩, found, read⟩ := Option.bind_eq_some_iff.mp h
      obtain ⟨rfl, rfl⟩ := Prod.mk.inj (Option.some.inj read)
      exact .list (readItems_isTidy found)
    · obtain ⟨⟨s, left⟩, -, read⟩ := Option.bind_eq_some_iff.mp h
      obtain ⟨rfl, rfl⟩ := Prod.mk.inj (Option.some.inj read)
      exact Setting.text_isTidy s
    · obtain ⟨rfl, rfl⟩ := Prod.mk.inj (Option.some.inj h)
      exact Setting.text_isTidy _
    · exact absurd h (by simp)
    · obtain ⟨rfl, rfl⟩ := Prod.mk.inj (Option.some.inj h)
      exact Setting.bool_isTidy true
    · obtain ⟨rfl, rfl⟩ := Prod.mk.inj (Option.some.inj h)
      exact Setting.bool_isTidy false
    · obtain ⟨rfl, rfl⟩ := Prod.mk.inj (Option.some.inj h)
      exact plain_isTidy _

theorem readItems_isTidy : ∀ {fuel : Nat} {cs rest : List Char} {items : List Setting},
    readItems fuel cs = some (items, rest) → ∀ item ∈ items, item.IsTidy
  | 0, _, _, _, h => by simp [readItems] at h
  | fuel + 1, cs, rest, items, h => by
    rw [readItems.eq_def] at h
    dsimp only at h
    split at h
    · obtain ⟨rfl, rfl⟩ := Prod.mk.inj (Option.some.inj h)
      simp
    · obtain ⟨⟨item, left⟩, first, h⟩ := Option.bind_eq_some_iff.mp h
      have tidy := readValue_isTidy first
      dsimp only at h
      split at h
      · obtain ⟨⟨more, left⟩, found, read⟩ := Option.bind_eq_some_iff.mp h
        obtain ⟨rfl, rfl⟩ := Prod.mk.inj (Option.some.inj read)
        exact List.forall_mem_cons.mpr ⟨tidy, readItems_isTidy found⟩
      · obtain ⟨rfl, rfl⟩ := Prod.mk.inj (Option.some.inj h)
        exact List.forall_mem_singleton.mpr tidy
      · exact absurd h (by simp)

theorem readEntries_areTidy : ∀ {fuel : Nat} {entries found : Entries} {cs rest : List Char},
    AreTidy entries → readEntries fuel entries cs = some (found, rest) → AreTidy found
  | 0, _, _, _, _, _, h => by simp [readEntries] at h
  | fuel + 1, entries, found, cs, rest, tidy, h => by
    rw [readEntries.eq_def] at h
    dsimp only at h
    split at h
    · obtain ⟨rfl, rfl⟩ := Prod.mk.inj (Option.some.inj h)
      exact tidy
    · obtain ⟨⟨key, left⟩, -, h⟩ := Option.bind_eq_some_iff.mp h
      dsimp only at h
      split at h
      · obtain ⟨⟨value, left⟩, read, h⟩ := Option.bind_eq_some_iff.mp h
        have kept : AreTidy (Setting.alter key (fun _ => value) entries) :=
          tidy.puts (Setting.alter_puts key _ entries) (readValue_isTidy read)
        dsimp only at h
        split at h
        · exact readEntries_areTidy kept h
        · obtain ⟨rfl, rfl⟩ := Prod.mk.inj (Option.some.inj h)
          exact kept
        · exact absurd h (by simp)
      · exact absurd h (by simp)
end

theorem valueOf_isTidy (text : String) : (valueOf text).IsTidy := by
  rw [valueOf]
  split
  · next found => exact readValue_isTidy found
  · exact Setting.text_isTidy text

/-- The settings of an environment give no key twice, at any depth. -/
theorem read_isTidy (environment : List (String × String)) : (read environment).IsTidy := by
  rw [read]
  refine List.foldlRecOn environment _ (isTidy_table_iff.mpr keyed_nil) ?_
  rintro settings tidy ⟨name, value⟩ -
  dsimp only
  split
  · exact Setting.merge_isTidy tidy (Setting.nest_isTidy (valueOf_isTidy value) _)
  · exact tidy

end Environment
end Liveboard.Config
