/-
  Liveboard/Proofs/Json/Verdicts.lean
  ===================================
  **When the decoding of a record panics.**

  The fields of a record arrive in an order of their own, but they are those of the record
  (`Shape.perm_arrivals`).  So if none of them is refused, the order does not matter: the
  decoding panics exactly if that of some field does (`Shape.verdict_eq_panic_iff`).
-/
import Liveboard.Json.Verdict
import Liveboard.Proofs.Json.Records

namespace Liveboard

/-! ### Verdicts -/

namespace Verdict

variable {α : Type} {verdict : Verdict} {judge : String → Json → Verdict} {fields : Fields}
  {record : Fields} {key : String} {value : Json} {decode : Json → Option α} {a : α}

@[simp] theorem ofOption_some (a : α) : ofOption (some a) = accepted := rfl

theorem ofOption_ne_panic (decoded : Option α) : ofOption decoded ≠ panic := by
  cases decoded <;> nofun

theorem ofNullable_ne_panic (decode : Json → Option α) (json : Json) :
    ofNullable decode json ≠ panic := by
  cases json with
  | null => nofun
  | _ => exact ofOption_ne_panic _

theorem ofComputed_eq_panic_iff {computed : Computed α} :
    ofComputed computed = panic ↔ computed = .panic := by
  cases computed <;> simp [ofComputed]

theorem ofComputed_ne_refused (computed : Computed α) : ofComputed computed ≠ refused := by
  cases computed <;> nofun

theorem andThen_eq_panic_iff {next : Verdict} :
    verdict.andThen next = panic ↔ verdict = panic ∨ verdict = accepted ∧ next = panic := by
  cases verdict <;> simp [andThen]

theorem andThen_ne_panic {next : Verdict} (fine : verdict ≠ panic) (later : next ≠ panic) :
    verdict.andThen next ≠ panic := by
  rw [ne_eq, andThen_eq_panic_iff, not_or]
  exact ⟨fine, fun both => later both.2⟩

@[simp] theorem andThen_accepted (verdict : Verdict) : verdict.andThen accepted = verdict := by
  cases verdict <;> rfl

theorem conclude_eq_panic_iff {decoded : Option α} :
    verdict.conclude decoded = .panic ↔ verdict = panic := by
  cases verdict <;> simp [conclude]

theorem conclude_of_ne_panic {decoded : Option α} (fine : verdict ≠ panic) :
    verdict.conclude decoded = .value decoded := by
  cases verdict with
  | panic => exact absurd rfl fine
  | _ => rfl

/-! ### Fields that were decoded are not refused -/

theorem ofOption_of_required? (read : record.required? key decode = some a)
    (found : Fields.get? record key = some value) : ofOption (decode value) ≠ refused := by
  rw [Fields.required?_of_get? found] at read
  rw [read]
  nofun

theorem ofNullable_of_nullable? {default : α}
    (read : record.nullable? key default decode = some a)
    (found : Fields.get? record key = some value) : ofNullable decode value ≠ refused := by
  cases value with
  | null => nofun
  | _ =>
    rw [Fields.nullable?_of_get? found nofun] at read
    rw [ofNullable, read]
    · nofun
    · nofun

/-! ### Field by field -/

theorem ofFields_ne_panic (never : ∀ name value, judge name value ≠ panic) (seen : List String)
    (fields : Fields) : ofFields judge seen fields ≠ panic := by
  induction fields generalizing seen with
  | nil => nofun
  | cons field fields ih =>
    unfold ofFields
    split
    · nofun
    · exact andThen_ne_panic (never field.1 field.2) (ih _)

theorem ofList_ne_panic {judge : Json → Verdict} (never : ∀ json, judge json ≠ panic)
    (json : Json) : ofList judge json ≠ panic := by
  cases json with
  | arr items =>
    rw [ofList]
    induction items with
    | nil => nofun
    | cons item items ih => exact andThen_ne_panic (never item) ih
  | _ => nofun

/-- Among fields of distinct names of which none is refused, any that panics is reached, unless
    another one panics before it. -/
theorem ofFields_eq_panic_iff (distinct : (fields.map (·.1)).Nodup) {seen : List String}
    (new : ∀ field ∈ fields, field.1 ∉ seen)
    (accepts : ∀ field ∈ fields, judge field.1 field.2 ≠ refused) :
    ofFields judge seen fields = panic ↔ ∃ field ∈ fields, judge field.1 field.2 = panic := by
  induction fields generalizing seen with
  | nil => simp [ofFields]
  | cons field fields ih =>
    obtain ⟨name, value⟩ := field
    obtain ⟨other, distinct⟩ := List.nodup_cons.mp distinct
    obtain ⟨here, later⟩ := List.forall_mem_cons.mp accepts
    obtain ⟨unseen, rest⟩ := List.forall_mem_cons.mp new
    have newer : ∀ field ∈ fields, field.1 ∉ name :: seen := by
      intro field mem again
      rcases List.mem_cons.mp again with same | before
      · exact other (List.mem_map.mpr ⟨field, mem, same⟩)
      · exact rest field mem before
    rw [ofFields, List.contains_eq_mem, decide_eq_false unseen, if_neg Bool.false_ne_true,
      andThen_eq_panic_iff, ih distinct newer later]
    simp only [List.mem_cons, exists_eq_or_imp]
    cases first : judge name value with
    | accepted => simp
    | refused => exact absurd first here
    | panic => simp

end Verdict

/-! ### Records -/

namespace FieldName

theorem flatMap_spellings (field : FieldName) (fields : Fields) :
    ((field.spellings.map (·, field.name)).flatMap fun spelling =>
        (Fields.get? fields spelling.1).toList.map (spelling.2, ·)) =
      (field.spellingsIn fields).map (field.name, ·) := by
  rw [spellings, spellingsIn, List.map_cons, List.flatMap_cons, List.map_append]
  cases field.alias? with
  | none => rfl
  | some other => simp

end FieldName

namespace Shape

variable {shape : Shape} {judge : String → Json → Verdict} {json : Json} {fields record : Fields}

/-- A record holds what is found under the spellings of its fields. -/
theorem eq_flatMap_of_ofFields? (found : shape.ofFields? fields = some record) :
    record = shape.flatMap fun field => (field.spellingsIn fields).map (field.name, ·) := by
  induction shape generalizing record with
  | nil =>
    cases found
    rfl
  | cons field shape ih =>
    rw [List.flatMap_cons]
    unfold ofFields? at found
    split at found
    · next missing =>
      rw [missing, ← ih found]
      rfl
    · next value single =>
      obtain ⟨rest, read, rfl⟩ := Option.map_eq_some_iff.mp found
      rw [single, ← ih read]
      rfl
    · cases found

theorem perm_arrivals (found : shape.record? json = some record) :
    (shape.arrivals json).Perm record := by
  cases json with
  | obj fields =>
    rw [eq_flatMap_of_ofFields? found, arrivals]
    refine ((List.mergeSort_perm _ _).flatMap_right _).trans ?_
    rw [List.flatMap_assoc]
    simp only [FieldName.flatMap_spellings]
    rfl
  | arr items =>
    simp only [record?, ofItems?] at found
    split at found
    · cases found
      rfl
    · cases found
  | _ => cases found

/-- The names of a record are among those of its shape, and in their order. -/
theorem names_sublist (found : shape.record? json = some record) :
    (record.map (·.1)).Sublist (shape.map (·.name)) := by
  cases json with
  | obj fields =>
    replace found : shape.ofFields? fields = some record := found
    induction shape generalizing record with
    | nil =>
      cases found
      exact .slnil
    | cons field shape ih =>
      unfold ofFields? at found
      split at found
      · exact (ih found).cons _
      · obtain ⟨rest, read, rfl⟩ := Option.map_eq_some_iff.mp found
        exact (ih read).cons_cons _
      · cases found
  | arr items =>
    simp only [record?, ofItems?] at found
    split at found
    · next short =>
      cases found
      rw [List.zip_eq_zip_take_min, List.map_fst_zip (by simp)]
      exact List.take_sublist _ _
    · cases found
  | _ => cases found

/-- If no field of a record is refused, its decoding panics exactly if that of a field does. -/
theorem verdict_eq_panic_iff (distinct : (shape.map (·.name)).Nodup)
    (found : shape.record? json = some record)
    (accepts : ∀ name value, Fields.get? record name = some value → judge name value ≠ .refused) :
    shape.verdict judge json = .panic ↔
      ∃ name value, Fields.get? record name = some value ∧ judge name value = .panic := by
  have names : (record.map (·.1)).Nodup := distinct.sublist (names_sublist found)
  have same := perm_arrivals found
  rw [verdict, Verdict.ofFields_eq_panic_iff ((same.map _).nodup_iff.mpr names) (by simp)]
  · simp only [same.mem_iff]
    constructor
    · rintro ⟨⟨name, value⟩, mem, panics⟩
      exact ⟨name, value, Fields.get?_of_mem names mem, panics⟩
    · rintro ⟨name, value, mem, panics⟩
      exact ⟨(name, value), Fields.mem_of_get? mem, panics⟩
  · intro field mem
    exact accepts field.1 field.2 (Fields.get?_of_mem names (same.mem_iff.mp mem))

theorem verdict_ne_panic (never : ∀ name value, judge name value ≠ .panic) (json : Json) :
    shape.verdict judge json ≠ .panic :=
  Verdict.ofFields_ne_panic never [] _

end Shape
end Liveboard
