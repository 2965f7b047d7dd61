/-
  Liveboard/Proofs/Json/Canonical.lean
  ====================================
  **Objects as maps from keys to values.**

  Fields whose keys increase are determined by what is found under each key
  (`Fields.IsSorted.ext`), and setting and erasing keep them so.  A value is canonical if
  every object in it is of that kind: that is what the canonical form of a value is, and
  what the reader makes of every text that it accepts (`isCanonical_of_read?`).
-/
import Liveboard.Json.Reader

namespace Liveboard

namespace Fields

variable {fields other : Fields} {key : String} {value : Json}

/-- The keys increase, so that each occurs once. -/
def IsSorted (fields : Fields) : Prop := fields.Pairwise fun field later => field.1 < later.1

/-! ### Look-up -/

theorem get?_erase (fields : Fields) (erased key : String) :
    get? (erase fields erased) key = if key = erased then none else get? fields key := by
  by_cases here : key = erased
  · rw [here, get?_erase_self, if_pos rfl]
  · rw [get?_erase_of_ne here, if_neg here]

theorem get?_insert (inserted : String) (value : Json) (fields : Fields) (key : String) :
    get? (insert inserted value fields) key =
      if key = inserted then some value else get? fields key := by
  by_cases here : key = inserted
  · rw [here, get?_insert_self, if_pos rfl]
  · rw [get?_insert_of_ne here, if_neg here]

theorem get?_eq_none_iff : get? fields key = none ↔ key ∉ fields.map (·.1) := by
  induction fields with
  | nil => simp
  | cons field fields ih =>
    rw [get?_cons, List.map_cons, List.mem_cons, not_or]
    by_cases here : key = field.1
    · simp [here]
    · simp [here, ih]

theorem mem_of_get? (found : get? fields key = some value) : (key, value) ∈ fields := by
  induction fields with
  | nil => cases found
  | cons field fields ih =>
    rw [get?_cons] at found
    split at found
    · next here =>
      cases found
      rw [here]
      exact List.mem_cons_self
    · exact List.mem_cons_of_mem _ (ih found)

/-! ### Order -/

theorem of_mem_insert {field : String × Json} (mem : field ∈ insert key value fields) :
    field = (key, value) ∨ field ∈ fields := by
  induction fields with
  | nil => exact .inl (List.mem_singleton.mp mem)
  | cons head fields ih =>
    simp only [insert] at mem
    split at mem
    · exact List.mem_cons.mp mem
    · split at mem
      · exact (List.mem_cons.mp mem).imp_right (List.mem_cons_of_mem _)
      · rcases List.mem_cons.mp mem with rfl | mem
        · exact .inr List.mem_cons_self
        · exact (ih mem).imp_right (List.mem_cons_of_mem _)

namespace IsSorted

theorem insert (sorted : IsSorted fields) (key : String) (value : Json) :
    IsSorted (insert key value fields) := by
  induction fields with
  | nil => exact List.pairwise_singleton _ _
  | cons head fields ih =>
    obtain ⟨first, rest⟩ := List.pairwise_cons.mp sorted
    simp only [Fields.insert]
    split
    · next before =>
      refine List.pairwise_cons.mpr ⟨?_, sorted⟩
      intro field mem
      rcases List.mem_cons.mp mem with rfl | mem
      · exact before
      · exact String.lt_trans before (first field mem)
    · next notBefore =>
      split
      · next here => exact List.pairwise_cons.mpr ⟨by rw [here]; exact first, rest⟩
      · next elsewhere =>
        refine List.pairwise_cons.mpr ⟨?_, ih rest⟩
        intro field mem
        rcases of_mem_insert mem with rfl | mem
        · exact Std.lt_of_le_of_ne (String.not_lt.mp notBefore) (Ne.symm elsewhere)
        · exact first field mem

theorem erase (sorted : IsSorted fields) (key : String) : IsSorted (erase fields key) :=
  sorted.sublist List.filter_sublist

theorem get?_eq_none (sorted : IsSorted ((key, value) :: fields)) : get? fields key = none := by
  rw [get?_eq_none_iff]
  intro again
  obtain ⟨field, mem, same⟩ := List.mem_map.mp again
  have after := (List.pairwise_cons.mp sorted).1 field mem
  rw [same] at after
  exact String.lt_irrefl key after

/-- Sorted fields are told apart by what is found in them. -/
theorem ext (sorted : IsSorted fields) (sorted' : IsSorted other)
    (same : ∀ key, get? fields key = get? other key) : fields = other := by
  induction fields generalizing other with
  | nil =>
    cases other with
    | nil => rfl
    | cons field other =>
      have found := same field.1
      rw [get?_nil, get?_cons, if_pos rfl] at found
      cases found
  | cons field fields ih =>
    cases other with
    | nil =>
      have found := same field.1
      rw [get?_nil, get?_cons, if_pos rfl] at found
      cases found
    | cons field' other =>
      obtain ⟨key, value⟩ := field
      obtain ⟨key', value'⟩ := field'
      obtain ⟨first, rest⟩ := List.pairwise_cons.mp sorted
      obtain ⟨first', rest'⟩ := List.pairwise_cons.mp sorted'
      -- were the keys different, each would come after the other
      have keys : key = key' := by
        refine Decidable.byContradiction fun differ => ?_
        have here := same key
        have there := same key'
        rw [get?_cons, get?_cons, if_pos rfl, if_neg differ] at here
        rw [get?_cons, get?_cons, if_pos rfl, if_neg (Ne.symm differ)] at there
        have after := first' _ (mem_of_get? here.symm)
        have before := first _ (mem_of_get? there)
        exact String.lt_asymm after before
      subst keys
      have values := same key
      rw [get?_cons, get?_cons, if_pos rfl, if_pos rfl, Option.some.injEq] at values
      rw [values]
      refine congrArg _ (ih rest rest' fun other => ?_)
      by_cases here : other = key
      · rw [here, get?_eq_none sorted, get?_eq_none sorted']
      · simpa only [get?_cons, if_neg here] using same other

end IsSorted

/-- Set all entries, from the first to the last. -/
def insertAll (entries fields : Fields) : Fields :=
  entries.foldl (fun fields entry => insert entry.1 entry.2 fields) fields

theorem ofList_eq_insertAll (entries : List (String × Json)) :
    ofList entries = insertAll entries [] := rfl

theorem IsSorted.insertAll (sorted : IsSorted fields) (entries : Fields) :
    IsSorted (insertAll entries fields) := by
  induction entries generalizing fields with
  | nil => exact sorted
  | cons entry entries ih => exact ih (sorted.insert _ _)

theorem isSorted_ofList (entries : List (String × Json)) : IsSorted (ofList entries) :=
  IsSorted.insertAll List.Pairwise.nil entries

theorem of_mem_insertAll {entries : Fields} {field : String × Json}
    (mem : field ∈ insertAll entries fields) : field ∈ fields ∨ field ∈ entries := by
  induction entries generalizing fields with
  | nil => exact .inl mem
  | cons entry entries ih =>
    rcases ih mem with mem | mem
    · rcases of_mem_insert mem with rfl | mem
      · exact .inr List.mem_cons_self
      · exact .inl mem
    · exact .inr (List.mem_cons_of_mem _ mem)

theorem of_mem_ofList {entries : List (String × Json)} {field : String × Json}
    (mem : field ∈ ofList entries) : field ∈ entries :=
  (of_mem_insertAll mem).resolve_left List.not_mem_nil

theorem get?_insertAll (entries fields : Fields) (key : String) :
    get? (insertAll entries fields) key = (get? (ofList entries) key).or (get? fields key) := by
  induction entries generalizing fields with
  | nil => rfl
  | cons entry entries ih =>
    have whole := ih (insert entry.1 entry.2 fields)
    have alone := ih (insert entry.1 entry.2 [])
    rw [get?_insert] at whole alone
    rw [ofList_eq_insertAll, insertAll, insertAll, List.foldl_cons, List.foldl_cons]
    refine whole.trans ?_
    refine Eq.trans ?_ (congrArg (Option.or · _) alone.symm)
    by_cases here : key = entry.1 <;> simp [here]

/-- The entries that come later win. -/
theorem get?_ofList_append (entries later : List (String × Json)) (key : String) :
    get? (ofList (entries ++ later)) key =
      (get? (ofList later) key).or (get? (ofList entries) key) := by
  rw [ofList_eq_insertAll, insertAll, List.foldl_append]
  exact get?_insertAll later (ofList entries) key

theorem IsSorted.ofList_eq_self (sorted : IsSorted fields) : ofList fields = fields := by
  refine (isSorted_ofList fields).ext sorted fun key => ?_
  induction fields with
  | nil => rfl
  | cons field fields ih =>
    rw [← List.singleton_append, get?_ofList_append, ih (List.pairwise_cons.mp sorted).2,
      List.singleton_append, get?_cons]
    by_cases here : key = field.1
    · rw [here, get?_eq_none sorted, if_pos rfl, Option.none_or]
      exact get?_insert_self _ _ _
    · rw [if_neg here]
      exact (congrArg _ (get?_insert_of_ne here _ _)).trans (Option.or_none ..)

end Fields

namespace Json

/-- The keys of every object increase. -/
def IsCanonical (json : Json) : Prop := json.canonical = json

theorem isCanonical_arr_iff {items : List Json} :
    (arr items).IsCanonical ↔ ∀ item ∈ items, item.IsCanonical := by
  rw [IsCanonical, canonical, canonicalItems_eq_map, arr.injEq]
  conv => lhs; rhs; rw [← List.map_id items]
  rw [List.map_inj_left]
  rfl

theorem canonicalFields_eq_self_iff {fields : Fields} :
    canonicalFields fields = fields ↔ ∀ field ∈ fields, field.2.IsCanonical := by
  rw [canonicalFields_eq_map]
  conv => lhs; rhs; rw [← List.map_id fields]
  rw [List.map_inj_left]
  exact forall₂_congr fun field _ =>
    ⟨fun same => (Prod.ext_iff.mp same).2, fun same => Prod.ext rfl same⟩

theorem isSorted_canonicalFields_iff {fields : Fields} :
    Fields.IsSorted (canonicalFields fields) ↔ Fields.IsSorted fields := by
  rw [canonicalFields_eq_map, Fields.IsSorted, List.pairwise_map]
  rfl

theorem isCanonical_obj_iff {fields : Fields} :
    (obj fields).IsCanonical ↔
      Fields.IsSorted fields ∧ ∀ field ∈ fields, field.2.IsCanonical := by
  rw [IsCanonical, canonical, obj.injEq, ← canonicalFields_eq_self_iff]
  constructor
  · intro same
    have sorted : Fields.IsSorted fields := same ▸ Fields.isSorted_ofList _
    refine ⟨sorted, ?_⟩
    rwa [(isSorted_canonicalFields_iff.mpr sorted).ofList_eq_self] at same
  · rintro ⟨sorted, same⟩
    rw [same, sorted.ofList_eq_self]

theorem IsCanonical.sorted {fields : Fields} (canonical : (obj fields).IsCanonical) :
    Fields.IsSorted fields :=
  (isCanonical_obj_iff.mp canonical).1

theorem IsCanonical.erase {fields : Fields} (canonical : (obj fields).IsCanonical)
    (key : String) : (obj (Fields.erase fields key)).IsCanonical := by
  obtain ⟨sorted, each⟩ := isCanonical_obj_iff.mp canonical
  exact isCanonical_obj_iff.mpr
    ⟨sorted.erase key, fun field mem => each field (List.mem_filter.mp mem).1⟩

theorem isCanonical_ofList {entries : List (String × Json)}
    (each : ∀ entry ∈ entries, entry.2.IsCanonical) : (obj (Fields.ofList entries)).IsCanonical :=
  isCanonical_obj_iff.mpr ⟨Fields.isSorted_ofList entries,
    fun field mem => each field (Fields.of_mem_ofList mem)⟩

/-! ### What the reader makes of a text -/

/-- All that a reader with so much fuel can read is canonical. -/
structure ReadsCanonical (fuel : Nat) : Prop where
  value : ∀ {depth cs value rest}, readValue fuel depth cs = some (value, rest) →
    value.IsCanonical
  items : ∀ {depth cs items rest}, readItems fuel depth cs = some (items, rest) →
    ∀ item ∈ items, item.IsCanonical
  fields : ∀ {depth cs fields rest}, readFields fuel depth cs = some (fields, rest) →
    ∀ field ∈ fields, field.2.IsCanonical

namespace ReadsCanonical

variable {fuel depth : Nat} {cs rest : List Char}

theorem succ_value (reads : ReadsCanonical fuel) {value : Json}
    (read : readValue (fuel + 1) depth cs = some (value, rest)) : value.IsCanonical := by
  simp only [readValue] at read
  split at read
  · cases read; rfl
  · cases read; rfl
  · cases read; rfl
  · obtain ⟨_, _, read⟩ := Option.bind_eq_some_iff.mp read
    cases read
    rfl
  · split at read
    · cases read
    · split at read
      · cases read
        rfl
      · obtain ⟨_, items, read⟩ := Option.bind_eq_some_iff.mp read
        cases read
        exact isCanonical_arr_iff.mpr (reads.items items)
  · split at read
    · cases read
    · split at read
      · cases read
        rfl
      · obtain ⟨_, fields, read⟩ := Option.bind_eq_some_iff.mp read
        cases read
        exact isCanonical_ofList (reads.fields fields)
  · obtain ⟨_, _, read⟩ := Option.bind_eq_some_iff.mp read
    cases read
    rfl

theorem succ_items (reads : ReadsCanonical fuel) {items : List Json}
    (read : readItems (fuel + 1) depth cs = some (items, rest)) :
    ∀ item ∈ items, item.IsCanonical := by
  simp only [readItems] at read
  obtain ⟨_, first, read⟩ := Option.bind_eq_some_iff.mp read
  split at read
  · obtain ⟨_, others, read⟩ := Option.bind_eq_some_iff.mp read
    cases read
    exact List.forall_mem_cons.mpr ⟨reads.value first, reads.items others⟩
  · cases read
    exact List.forall_mem_singleton.mpr (reads.value first)
  · cases read

theorem succ_fields (reads : ReadsCanonical fuel) {fields : List (String × Json)}
    (read : readFields (fuel + 1) depth cs = some (fields, rest)) :
    ∀ field ∈ fields, field.2.IsCanonical := by
  simp only [readFields] at read
  split at read
  · obtain ⟨_, _, read⟩ := Option.bind_eq_some_iff.mp read
    split at read
    · obtain ⟨_, first, read⟩ := Option.bind_eq_some_iff.mp read
      split at read
      · obtain ⟨_, others, read⟩ := Option.bind_eq_some_iff.mp read
        cases read
        exact List.forall_mem_cons.mpr ⟨reads.value first, reads.fields others⟩
      · cases read
        exact List.forall_mem_singleton.mpr (reads.value first)
      · cases read
    · cases read
  · cases read

end ReadsCanonical

theorem readsCanonical (fuel : Nat) : ReadsCanonical fuel := by
  induction fuel with
  | zero =>
    constructor
    · intro _ _ _ _ read
      cases read
    · intro _ _ _ _ read
      cases read
    · intro _ _ _ _ read
      cases read
  | succ fuel reads => exact ⟨reads.succ_value, reads.succ_items, reads.succ_fields⟩

theorem isCanonical_of_read? {text : String} {value : Json} (read : read? text = some value) :
    value.IsCanonical := by
  simp only [read?] at read
  split at read
  · next found =>
    split at read
    · cases read
      exact (readsCanonical _).value found
    · cases read
  · cases read

end Json
end Liveboard
