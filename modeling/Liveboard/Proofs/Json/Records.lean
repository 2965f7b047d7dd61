/-
  Liveboard/Proofs/Json/Records.lean
  ==================================
  **A written record is found again field by field.**

  A record is written as an object whose keys are distinct.  Whatever order the keys get in
  the plain value, the shape finds under each name what was written there
  (`Shape.exists_record_of_written`), as long as no field was written under its other
  spelling.
-/
import Liveboard.Json.Decode
import Liveboard.Proofs.Json.Canonical

namespace Liveboard

namespace Fields

variable {α : Type} {entries record : Fields} {key : String} {value : Json}
  {decode : Json → Option α}

/-! ### Fields with distinct keys -/

theorem get?_append (entries later : Fields) (key : String) :
    get? (entries ++ later) key = (get? entries key).or (get? later key) := by
  induction entries with
  | nil => rfl
  | cons entry entries ih =>
    rw [List.cons_append, get?_cons, get?_cons, ih]
    by_cases here : key = entry.1
    · simp [here]
    · simp [here]

theorem get?_of_mem (distinct : (entries.map (·.1)).Nodup) (mem : (key, value) ∈ entries) :
    get? entries key = some value := by
  induction entries with
  | nil => cases mem
  | cons entry entries ih =>
    obtain ⟨new, distinct⟩ := List.nodup_cons.mp distinct
    rw [get?_cons]
    rcases List.mem_cons.mp mem with rfl | later
    · exact if_pos rfl
    · have other : key ≠ entry.1 := by
        rintro rfl
        exact new (List.mem_map.mpr ⟨_, later, rfl⟩)
      rw [if_neg other, ih distinct later]

theorem get?_ofList_of_nodup (distinct : (entries.map (·.1)).Nodup) (key : String) :
    get? (ofList entries) key = get? entries key := by
  induction entries with
  | nil => rfl
  | cons entry entries ih =>
    obtain ⟨name, value⟩ := entry
    obtain ⟨new, distinct⟩ := List.nodup_cons.mp distinct
    rw [← List.singleton_append, get?_ofList_append, get?_append, ih distinct]
    by_cases here : key = name
    · have alone : get? (ofList [(name, value)]) name = some value := get?_insert_self _ _ _
      rw [here, alone, get?_eq_none_iff.mpr new, get?_cons, if_pos rfl]
      rfl
    · have alone : get? (ofList [(name, value)]) key = none := get?_insert_of_ne here _ _
      rw [alone, get?_cons, if_neg here, get?_nil, Option.or_none, Option.none_or]

theorem get?_toList_map (text? : Option String) (other key : String) :
    get? (text?.toList.map fun text => (other, Json.str text)) key =
      if key = other then text?.map .str else none := by
  cases text? with
  | none => simp
  | some text => simp [get?_cons]

/-- Keeping fields by their keys. -/
theorem get?_filter (keep : String → Bool) (fields : Fields) (key : String) :
    get? (fields.filter fun field => keep field.1) key =
      if keep key then get? fields key else none := by
  induction fields with
  | nil => simp
  | cons field fields ih =>
    obtain ⟨other, value⟩ := field
    rw [List.filter_cons, get?_cons]
    by_cases kept : keep other = true
    · rw [if_pos kept, get?_cons, ih]
      by_cases here : key = other
      · simp [here, kept]
      · simp [here]
    · rw [if_neg kept, ih]
      by_cases here : key = other
      · simp [here, kept]
      · simp [here]

theorem IsSorted.nodup_keys {fields : Fields} (sorted : IsSorted fields) :
    (fields.map (·.1)).Nodup := by
  rw [List.Nodup, List.pairwise_map]
  refine sorted.imp fun before same => ?_
  rw [same] at before
  exact String.lt_irrefl _ before

theorem get?_canonicalFields (fields : Fields) (key : String) :
    get? (Json.canonicalFields fields) key = (get? fields key).map Json.canonical := by
  induction fields with
  | nil => rfl
  | cons field fields ih =>
    rw [Json.canonicalFields, get?_cons, get?_cons, ih]
    by_cases here : key = field.1
    · simp [here]
    · simp [here]

theorem map_fst_canonicalFields (fields : Fields) :
    (Json.canonicalFields fields).map (·.1) = fields.map (·.1) := by
  rw [Json.canonicalFields_eq_map, List.map_map]
  rfl

/-! ### Single fields -/

theorem required?_of_get? (found : get? record key = some value) :
    required? record key decode = decode value := by
  rw [required?, found, Option.bind_some]

theorem defaulted?_of_get? {default : α} (found : get? record key = some value) :
    defaulted? record key default decode = decode value := by
  rw [defaulted?, found]

theorem optional?_of_none (found : get? record key = none) :
    optional? record key decode = some none := by
  rw [optional?, found]

theorem optional?_of_get? (found : get? record key = some value) (some' : value ≠ .null) :
    optional? record key decode = (decode value).map some := by
  rw [optional?, found]
  cases value with
  | null => exact absurd rfl some'
  | _ => rfl

theorem nullable?_of_get? {default : α} (found : get? record key = some value)
    (some' : value ≠ .null) : nullable? record key default decode = decode value := by
  rw [nullable?, optional?_of_get? found some', Option.map_map]
  cases decode value <;> rfl

/-- A field that is left out when absent. -/
theorem optional?_of_map {encode : α → Json} {a? : Option α}
    (found : get? record key = a?.map encode) (some' : ∀ a, encode a ≠ .null)
    (back : ∀ a, decode (encode a) = some a) : optional? record key decode = some a? := by
  cases a? with
  | none => exact optional?_of_none found
  | some a => rw [optional?_of_get? found (some' a), back, Option.map_some]

end Fields

namespace Shape

variable {shape : Shape} {fields entries record : Fields} {json : Json}

/-- Without second spellings the record has the fields of the object that the shape names. -/
theorem exists_ofFields?
    (plain : ∀ field ∈ shape, ∀ other ∈ field.alias?, Fields.get? fields other = none) :
    ∃ record, ofFields? shape fields = some record ∧ ∀ key, Fields.get? record key =
      if key ∈ shape.map (·.name) then Fields.get? fields key else none := by
  induction shape with
  | nil => exact ⟨[], rfl, fun key => rfl⟩
  | cons field shape ih =>
    obtain ⟨first, later⟩ := List.forall_mem_cons.mp plain
    obtain ⟨record, read, found⟩ := ih later
    have spellings : field.spellingsIn fields = (Fields.get? fields field.name).toList := by
      rw [FieldName.spellingsIn]
      cases other : field.alias? with
      | none => simp
      | some other' => simp [first other' other]
    cases value : Fields.get? fields field.name with
    | none =>
      refine ⟨record, by simp [ofFields?, spellings, value, read], fun key => ?_⟩
      rw [found]
      by_cases here : key = field.name
      · simp [here, value]
      · simp [here]
    | some value' =>
      refine ⟨(field.name, value') :: record, by simp [ofFields?, spellings, value, read],
        fun key => ?_⟩
      rw [Fields.get?_cons, found]
      by_cases here : key = field.name
      · simp [here, value]
      · simp [here]

/-- Reading a plain value back, the shape finds what was written under each of its names. -/
theorem exists_record_of_written (distinct : (entries.map (·.1)).Nodup)
    (plain : ∀ field ∈ shape, ∀ other ∈ field.alias?, other ∉ entries.map (·.1)) :
    ∃ record, shape.record? (Json.obj entries).canonical = some record ∧
      ∀ field ∈ shape, Fields.get? record field.name =
        (Fields.get? entries field.name).map Json.canonical := by
  have written : ∀ key, Fields.get? (Fields.ofList (Json.canonicalFields entries)) key =
      (Fields.get? entries key).map Json.canonical := by
    intro key
    rw [Fields.get?_ofList_of_nodup (by rwa [Fields.map_fst_canonicalFields]),
      Fields.get?_canonicalFields]
  have single : ∀ field ∈ shape, ∀ other ∈ field.alias?,
      Fields.get? (Fields.ofList (Json.canonicalFields entries)) other = none := by
    intro field mem other spelled
    rw [written, Fields.get?_eq_none_iff.mpr (plain field mem other spelled), Option.map_none]
  obtain ⟨record, read, found⟩ := exists_ofFields? single
  refine ⟨record, read, fun field mem => ?_⟩
  rw [found, if_pos (List.mem_map_of_mem mem), written]

theorem isCanonical_of_ofFields? (canonical : (Json.obj fields).IsCanonical)
    (read : ofFields? shape fields = some record) : ∀ field ∈ record, field.2.IsCanonical := by
  have values := (Json.isCanonical_obj_iff.mp canonical).2
  induction shape generalizing record with
  | nil =>
    cases read
    exact fun _ mem => absurd mem List.not_mem_nil
  | cons field shape ih =>
    rw [ofFields?] at read
    split at read
    · exact ih read
    · next value spelled =>
      obtain ⟨later, others, rfl⟩ := Option.map_eq_some_iff.mp read
      refine List.forall_mem_cons.mpr ⟨?_, ih others⟩
      have mem : value ∈ field.spellingsIn fields := by
        rw [spelled]
        exact List.mem_singleton_self _
      rcases List.mem_append.mp mem with found | found
      · exact values (field.name, value) (Fields.mem_of_get? (Option.mem_toList.mp found))
      · obtain ⟨other, -, found⟩ := Option.bind_eq_some_iff.mp (Option.mem_toList.mp found)
        exact values (other, value) (Fields.mem_of_get? found)
    · cases read

/-- The fields of a record that is read from a plain value are plain values. -/
theorem isCanonical_of_record? (canonical : json.IsCanonical)
    (read : shape.record? json = some record) : ∀ field ∈ record, field.2.IsCanonical := by
  cases json with
  | obj fields => exact isCanonical_of_ofFields? canonical read
  | arr items =>
    simp only [record?, ofItems?] at read
    split at read
    · cases read
      intro field mem
      exact Json.isCanonical_arr_iff.mp canonical field.2 (List.of_mem_zip mem).2
    · cases read
  | _ => cases read

end Shape

namespace Json

/-! ### Plain values -/

theorem isCanonical_obj_of_keys {fields : Fields} (keys : (fields.map (·.1)).Pairwise (· < ·))
    (values : ∀ field ∈ fields, field.2.IsCanonical) : (obj fields).IsCanonical :=
  isCanonical_obj_iff.mpr ⟨List.pairwise_map.mp keys, values⟩

mutual
theorem isCanonical_canonical : ∀ json : Json, json.canonical.IsCanonical
  | .null => rfl
  | .bool _ => rfl
  | .num _ => rfl
  | .str _ => rfl
  | .arr items => isCanonical_arr_iff.mpr (isCanonical_of_mem_canonicalItems items)
  | .obj fields => isCanonical_ofList (isCanonical_of_mem_canonicalFields fields)
termination_by structural json => json

theorem isCanonical_of_mem_canonicalItems : ∀ items : List Json,
    ∀ item ∈ canonicalItems items, item.IsCanonical
  | [] => fun _ mem => absurd mem List.not_mem_nil
  | item :: items => List.forall_mem_cons.mpr
    ⟨isCanonical_canonical item, isCanonical_of_mem_canonicalItems items⟩
termination_by structural items => items

theorem isCanonical_of_mem_canonicalFields : ∀ fields : List (String × Json),
    ∀ field ∈ canonicalFields fields, field.2.IsCanonical
  | [] => fun _ mem => absurd mem List.not_mem_nil
  | (_, value) :: fields => List.forall_mem_cons.mpr
    ⟨isCanonical_canonical value, isCanonical_of_mem_canonicalFields fields⟩
termination_by structural fields => fields
end

end Json
end Liveboard
