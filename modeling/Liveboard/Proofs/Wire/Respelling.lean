/-
  Liveboard/Proofs/Wire/Respelling.lean
  =====================================
  **Spellings and foreign fields do not matter.**

  Two objects respell each other for a shape (`Shape.Respells`) if they hold the same values in
  its fields, each of them under either of its names but never under both; what else they hold
  is free.  Objects that do so give the same record.  Two frames respell each other
  (`Frame.Respells`) if they do so for the body of their type, where the chats, messages and
  saved components in it may be respelled as well.  Such frames read the same, or neither
  reads (`respelled_frames_read_alike`).
-/
import Liveboard.Proofs.Json.Printing
import Liveboard.Proofs.Json.Records
import Liveboard.Wire.Frame
import Mathlib.Data.List.Forall2

namespace Liveboard

/-! ### Fields under either name -/

namespace FieldName

variable {field : FieldName} {fields ours theirs : Fields}

/-- What stands under one of the names of the field. -/
def valueIn? (field : FieldName) (fields : Fields) : Option Json :=
  (Fields.get? fields field.name).or (field.alias?.bind (Fields.get? fields))

/-- The field does not stand under both names. -/
def IsOnceIn (field : FieldName) (fields : Fields) : Prop :=
  Fields.get? fields field.name = none ∨ field.alias?.bind (Fields.get? fields) = none

instance : Decidable (field.IsOnceIn fields) :=
  inferInstanceAs (Decidable (Fields.get? fields field.name = none ∨
    field.alias?.bind (Fields.get? fields) = none))

theorem spellingsIn_eq (once : field.IsOnceIn fields) :
    field.spellingsIn fields = (field.valueIn? fields).toList := by
  rw [spellingsIn, valueIn?]
  rcases once with unnamed | unspelled
  · rw [unnamed, Option.none_or, Option.toList_none, List.nil_append]
  · rw [unspelled, Option.or_none, Option.toList_none, List.append_nil]

theorem bind_alias_congr
    (agree : ∀ key ∈ field.spellings, Fields.get? theirs key = Fields.get? ours key) :
    field.alias?.bind (Fields.get? theirs) = field.alias?.bind (Fields.get? ours) := by
  cases alias? : field.alias? with
  | none => rfl
  | some other =>
    have mem : other ∈ field.spellings := by simp [spellings, alias?]
    exact agree other mem

theorem valueIn?_congr
    (agree : ∀ key ∈ field.spellings, Fields.get? theirs key = Fields.get? ours key) :
    field.valueIn? theirs = field.valueIn? ours := by
  rw [valueIn?, valueIn?, agree _ List.mem_cons_self, bind_alias_congr agree]

theorem isOnceIn_congr
    (agree : ∀ key ∈ field.spellings, Fields.get? theirs key = Fields.get? ours key) :
    field.IsOnceIn theirs ↔ field.IsOnceIn ours := by
  rw [IsOnceIn, IsOnceIn, agree _ List.mem_cons_self, bind_alias_congr agree]

end FieldName

/-! ### Records -/

/-- Records of the same fields in the same order, whose values are related name by name. -/
def Fields.Related (related : String → Json → Json → Prop) : Fields → Fields → Prop :=
  List.Forall₂ fun our their => our.1 = their.1 ∧ related our.1 our.2 their.2

/-- Two objects that hold related values in the fields of a shape, each under either name, and
    whatever they like beside them. -/
structure Shape.Respells (shape : Shape) (related : String → Json → Json → Prop)
    (ours theirs : Fields) : Prop where
  once : ∀ field ∈ shape, field.IsOnceIn ours ∧ field.IsOnceIn theirs
  same : ∀ field ∈ shape,
    Option.Rel (related field.name) (field.valueIn? ours) (field.valueIn? theirs)

namespace Shape.Respells

variable {shape : Shape} {related : String → Json → Json → Prop} {ours theirs : Fields}

theorem exists_records (respells : shape.Respells related ours theirs) :
    ∃ our their, shape.ofFields? ours = some our ∧ shape.ofFields? theirs = some their ∧
      Fields.Related related our their := by
  obtain ⟨once, same⟩ := respells
  induction shape with
  | nil => exact ⟨[], [], rfl, rfl, .nil⟩
  | cons field shape ih =>
    obtain ⟨⟨ourOnce, theirOnce⟩, once⟩ := List.forall_mem_cons.mp once
    obtain ⟨first, same⟩ := List.forall_mem_cons.mp same
    obtain ⟨our, their, ourRead, theirRead, records⟩ := ih once same
    rw [ofFields?, ofFields?, field.spellingsIn_eq ourOnce, field.spellingsIn_eq theirOnce]
    generalize field.valueIn? ours = ourValue, field.valueIn? theirs = theirValue at first
    cases first with
    | none => exact ⟨our, their, ourRead, theirRead, records⟩
    | @some value value' values =>
      exact ⟨(field.name, value) :: our, (field.name, value') :: their,
        by simp [ourRead], by simp [theirRead], .cons ⟨rfl, values⟩ records⟩

theorem ofFields?_eq (respells : shape.Respells (fun _ => Eq) ours theirs) :
    shape.ofFields? ours = shape.ofFields? theirs := by
  obtain ⟨our, their, ourRead, theirRead, records⟩ := respells.exists_records
  have equal : List.Forall₂ Eq our their := records.imp fun _ _ same => Prod.ext same.1 same.2
  rw [List.forall₂_eq_eq_eq] at equal
  rw [ourRead, theirRead, equal]

/-! What is still a respelling after one more change on their side. -/

variable {theirs' : Fields} {value : Json}

theorem refl (reflexive : ∀ key value, related key value value)
    (once : ∀ field ∈ shape, field.IsOnceIn ours) : shape.Respells related ours ours := by
  refine ⟨fun field mem => ⟨once field mem, once field mem⟩, fun field _ => ?_⟩
  cases field.valueIn? ours with
  | none => exact .none
  | some value => exact .some (reflexive field.name value)

theorem of_values (respells : shape.Respells related ours theirs)
    (each : ∀ field ∈ shape,
      field.IsOnceIn theirs' ∧ field.valueIn? theirs' = field.valueIn? theirs) :
    shape.Respells related ours theirs' := by
  refine ⟨fun field mem => ⟨(respells.once field mem).1, (each field mem).1⟩, fun field mem => ?_⟩
  rw [(each field mem).2]
  exact respells.same field mem

/-- A field that does not belong to the record. -/
theorem insert (respells : shape.Respells related ours theirs) (key : String) (value : Json)
    (foreign : ∀ field ∈ shape, key ∉ field.spellings) :
    shape.Respells related ours (theirs.insert key value) := by
  refine respells.of_values fun field mem => ?_
  have agree : ∀ name ∈ field.spellings,
      Fields.get? (theirs.insert key value) name = theirs.get? name := by
    intro name spelled
    have other : name ≠ key := ne_of_mem_of_not_mem spelled (foreign field mem)
    exact Fields.get?_insert_of_ne other value theirs
  exact ⟨(FieldName.isOnceIn_congr agree).mpr (respells.once field mem).2,
    FieldName.valueIn?_congr agree⟩

/-- A value that moves from one name of its field to the other. -/
theorem move {source target : String} (respells : shape.Respells related ours theirs)
    (field : FieldName) (names : field = .spelled source target ∨ field = .spelled target source)
    (alone : ∀ other ∈ shape, other ≠ field →
      source ∉ other.spellings ∧ target ∉ other.spellings)
    (there : theirs.get? source = some value) (free : theirs.get? target = none) :
    shape.Respells related ours ((theirs.erase source).insert target value) := by
  have apart : source ≠ target := by
    rintro rfl
    rw [there] at free
    cases free
  have gone : Fields.get? ((theirs.erase source).insert target value) source = none := by
    rw [Fields.get?_insert_of_ne apart, Fields.get?_erase_self]
  have moved : Fields.get? ((theirs.erase source).insert target value) target = some value :=
    Fields.get?_insert_self _ _ _
  refine respells.of_values fun other mem => ?_
  by_cases same : other = field
  · rw [same]
    rcases names with rfl | rfl
    · exact ⟨.inl gone, by simp [FieldName.valueIn?, FieldName.spelled, gone, moved, there, free]⟩
    · exact ⟨.inr gone, by simp [FieldName.valueIn?, FieldName.spelled, gone, moved, there, free]⟩
  · obtain ⟨noSource, noTarget⟩ := alone other mem same
    have agree : ∀ name ∈ other.spellings,
        Fields.get? ((theirs.erase source).insert target value) name = theirs.get? name := by
      intro name spelled
      rw [Fields.get?_insert_of_ne (ne_of_mem_of_not_mem spelled noTarget),
        Fields.get?_erase_of_ne (ne_of_mem_of_not_mem spelled noSource)]
    exact ⟨(FieldName.isOnceIn_congr agree).mpr (respells.once other mem).2,
      FieldName.valueIn?_congr agree⟩

end Shape.Respells

namespace Fields.Related

variable {related : String → Json → Json → Prop} {our their : Fields} {key : String} {α : Type}
  {decode : Json → Option α}

theorem get? (records : Fields.Related related our their) (key : String) :
    Option.Rel (related key) (our.get? key) (their.get? key) := by
  induction records with
  | nil => exact .none
  | @cons first first' rest rest' values _ ih =>
    obtain ⟨name, value⟩ := first
    obtain ⟨name', value'⟩ := first'
    obtain ⟨rfl, values⟩ := values
    rw [Fields.get?_cons, Fields.get?_cons]
    by_cases here : key = name
    · rw [if_pos here, if_pos here, here]
      exact .some values
    · rw [if_neg here, if_neg here]
      exact ih

theorem get?_cases (records : Fields.Related related our their) (key : String) :
    (our.get? key = none ∧ their.get? key = none) ∨
      ∃ value value', our.get? key = some value ∧ their.get? key = some value' ∧
        related key value value' := by
  have found := records.get? key
  generalize our.get? key = ourValue, their.get? key = theirValue at found
  cases found with
  | none => exact .inl ⟨rfl, rfl⟩
  | @some value value' values => exact .inr ⟨value, value', rfl, rfl, values⟩

theorem required?_eq (records : Fields.Related related our their)
    (respects : ∀ value value', related key value value' → decode value = decode value') :
    our.required? key decode = their.required? key decode := by
  rcases records.get?_cases key with ⟨ours, theirs⟩ | ⟨value, value', ours, theirs, values⟩
  · rw [Fields.required?, Fields.required?, ours, theirs]
  · rw [Fields.required?_of_get? ours, Fields.required?_of_get? theirs, respects _ _ values]

theorem defaulted?_eq (records : Fields.Related related our their) (default : α)
    (respects : ∀ value value', related key value value' → decode value = decode value') :
    our.defaulted? key default decode = their.defaulted? key default decode := by
  rcases records.get?_cases key with ⟨ours, theirs⟩ | ⟨value, value', ours, theirs, values⟩
  · rw [Fields.defaulted?, Fields.defaulted?, ours, theirs]
  · rw [Fields.defaulted?_of_get? ours, Fields.defaulted?_of_get? theirs, respects _ _ values]

/-- Null counts as absent, so that the values themselves have to be the same. -/
theorem optional?_eq (records : Fields.Related related our their)
    (taken : ∀ value value', related key value value' → value = value') :
    our.optional? key decode = their.optional? key decode := by
  rcases records.get?_cases key with ⟨ours, theirs⟩ | ⟨value, value', ours, theirs, values⟩
  · rw [Fields.optional?_of_none ours, Fields.optional?_of_none theirs]
  · rw [Fields.optional?, Fields.optional?, ours, theirs, taken _ _ values]

end Fields.Related

namespace Json

/-- The same value, or objects that hold the same values in the fields of a shape. -/
inductive Respelled (shape : Shape) : Json → Json → Prop where
  | same (json : Json) : Respelled shape json json
  | fields {ours theirs : Fields} (respells : shape.Respells (fun _ => Eq) ours theirs) :
    Respelled shape (.obj ours) (.obj theirs)

/-- The same value, or lists of related items. -/
inductive ItemsRelated (related : Json → Json → Prop) : Json → Json → Prop where
  | same (json : Json) : ItemsRelated related json json
  | items {ours theirs : List Json} (each : List.Forall₂ related ours theirs) :
    ItemsRelated related (.arr ours) (.arr theirs)

variable {shape : Shape} {related : Json → Json → Prop} {our their : Json} {α : Type}
  {decode : Json → Option α}

theorem Respelled.record?_eq (respelled : Respelled shape our their) :
    shape.record? our = shape.record? their := by
  cases respelled with
  | same => rfl
  | fields respells => exact respells.ofFields?_eq

theorem ItemsRelated.asList?_eq (items : ItemsRelated related our their)
    (respects : ∀ item item', related item item' → decode item = decode item') :
    our.asList? decode = their.asList? decode := by
  cases items with
  | same => rfl
  | items each =>
    rw [asList?, asList?]
    induction each with
    | nil => rfl
    | cons first _ ih => rw [List.mapM_cons, List.mapM_cons, respects _ _ first, ih]

theorem Respelled.chat?_eq (respelled : Respelled Chat.shape our their) :
    Chat.ofJson? our = Chat.ofJson? their := by
  rw [Chat.ofJson?, Chat.ofJson?, respelled.record?_eq]

theorem Respelled.message?_eq (empties : Empties) (respelled : Respelled Message.shape our their) :
    Message.ofJson? empties our = Message.ofJson? empties their := by
  rw [Message.ofJson?, Message.ofJson?, respelled.record?_eq]

theorem Respelled.savedComponent?_eq (respelled : Respelled SavedComponent.shape our their) :
    SavedComponent.ofJson? our = SavedComponent.ofJson? their := by
  rw [SavedComponent.ofJson?, SavedComponent.ofJson?, respelled.record?_eq]

end Json

/-! ### Frames -/

/-- What a field of a frame holds: a record, a list of records, or what is taken as it is. -/
inductive Held where
  | value
  | record (shape : Shape)
  | records (shape : Shape)

def Held.Related : Held → Json → Json → Prop
  | value => Eq
  | record shape => Json.Respelled shape
  | records shape => Json.ItemsRelated (Json.Respelled shape)

namespace Frame

/-- The fields that hold chats, messages or saved components. -/
def heldIn : String → String → Held
  | "history_list", "chats" => .records Chat.shape
  | "chat_loaded", "messages" => .records Message.shape
  | "saved_components_list", "components" => .records SavedComponent.shape
  | "component_saved", "component" => .record SavedComponent.shape
  | "components_combined", "new_components" => .records SavedComponent.shape
  | "components_condensed", "new_components" => .records SavedComponent.shape
  | _, _ => .value

/-- Objects of one type that hold the same in the body of the type, under whatever names. -/
structure Respells (name : String) (ours theirs : Fields) : Prop where
  ourType : ours.get? "type" = some (.str name)
  theirType : theirs.get? "type" = some (.str name)
  body : (shapeOf name).Respells (fun key => (heldIn name key).Related) ours theirs

variable {name : String} {our their ours theirs : Fields}

/-- Whatever is made of a value that is taken as it is. -/
theorem taken {α : Type} {key : String} {decode : Json → α} (held : heldIn name key = .value)
    (value value' : Json) (same : (heldIn name key).Related value value') :
    decode value = decode value' := by
  rw [held] at same
  exact congrArg decode same

theorem record_respected {key : String} (held : heldIn name key = .record SavedComponent.shape)
    (value value' : Json) (related : (heldIn name key).Related value value') :
    SavedComponent.ofJson? value = SavedComponent.ofJson? value' := by
  rw [held] at related
  exact Json.Respelled.savedComponent?_eq related

theorem records_respected {α : Type} {key : String} {shape : Shape} {decode : Json → Option α}
    (held : heldIn name key = .records shape)
    (respects : ∀ item item', Json.Respelled shape item item' → decode item = decode item')
    (value value' : Json) (related : (heldIn name key).Related value value') :
    value.asList? decode = value'.asList? decode := by
  rw [held] at related
  exact Json.ItemsRelated.asList?_eq related respects

theorem forestIn_eq (records : Fields.Related (fun key => (heldIn name key).Related) our their)
    (held : heldIn name "components" = .value) : forestIn our = forestIn their :=
  records.defaulted?_eq [] (taken held)

theorem replacementIn_eq
    (records : Fields.Related (fun key => (heldIn name key).Related) our their)
    (removed : heldIn name "removed_ids" = .value)
    (added : heldIn name "new_components" = .records SavedComponent.shape) :
    replacementIn our = replacementIn their := by
  rw [replacementIn, replacementIn, records.defaulted?_eq [] (taken removed),
    records.defaulted?_eq [] (records_respected added fun _ _ => Json.Respelled.savedComponent?_eq)]

/-- Records of related values denote the same frame. -/
theorem ofRecord?_eq
    (records : Fields.Related (fun key => (heldIn name key).Related) our their) :
    ofRecord? name our = ofRecord? name their := by
  unfold ofRecord?
  -- a case per type, with what its fields hold
  split
  · rw [records.optional?_eq (taken rfl)]
  · rw [records.required?_eq (taken rfl)]
  · rw [records.defaulted?_eq [] (taken rfl)]
  · rw [records.required?_eq (taken rfl), records.optional?_eq (taken rfl)]
  · rw [forestIn_eq records rfl]
  · rw [forestIn_eq records rfl]
  · rw [forestIn_eq records rfl]
  · rw [records.defaulted?_eq [] (records_respected rfl fun _ _ => Json.Respelled.chat?_eq)]
  · rw [records.required?_eq (taken rfl)]
  · rw [records.required?_eq (taken rfl), records.defaulted?_eq []
      (records_respected rfl fun _ _ => Json.Respelled.message?_eq empties)]
  · rw [records.defaulted?_eq []
      (records_respected rfl fun _ _ => Json.Respelled.savedComponent?_eq)]
  · rw [records.required?_eq (record_respected rfl)]
  · rw [records.required?_eq (taken rfl)]
  · rw [records.defaulted?_eq "" (taken rfl)]
  · rw [records.optional?_eq (taken rfl)]
  · rw [replacementIn_eq records rfl rfl]
  · rw [replacementIn_eq records rfl rfl]
  · rw [records.defaulted?_eq "" (taken rfl)]
  · rfl

theorem ofFields?_eq (respells : Respells name ours theirs) :
    ofFields? name ours = ofFields? name theirs := by
  obtain ⟨our, their, ourRead, theirRead, records⟩ := respells.body.exists_records
  rw [ofFields?, ofFields?, ourRead, theirRead, Option.bind_some, Option.bind_some,
    ofRecord?_eq records]

theorem ofJson_eq (respells : Respells name ours theirs) :
    ofJson (.obj ours) = ofJson (.obj theirs) := by
  simp only [ofJson, respells.ourType, respells.theirType, ofFields?_eq respells]

/-- Frames that differ only in the names under which fields stand, and in fields that do not
    belong to them, read the same, or are errors of the same kind. -/
theorem respelled_frames_read_alike (respells : Respells name ours theirs) :
    ofJson (.obj ours) = ofJson (.obj theirs) ∧
      ∀ text text', Json.read? text = some (.obj ours) → Json.read? text' = some (.obj theirs) →
        parse text = parse text' := by
  refine ⟨ofJson_eq respells, fun text text' ourRead theirRead => ?_⟩
  rw [parse, parse, ourRead, theirRead]
  exact ofJson_eq respells

/-! A stored component and the frame that brings it, before and after. -/

def plainComponent : Fields :=
  [("chat_id", .str "c"), ("component_data", .obj [("kind", .str "metric")]),
   ("component_type", .str "metric"), ("id", .str "s")]

def respelledComponent : Fields :=
  [("chatId", .str "c"), ("component_data", .obj [("kind", .str "metric")]),
   ("component_type", .str "metric"), ("id", .str "s"), ("note", .arr [.null])]

def plainFrame : Fields :=
  [("new_components", .arr [.obj plainComponent]), ("removed_ids", .arr [.str "a"]),
   ("type", .str "components_combined")]

def respelledFrame : Fields :=
  [("newComponents", .arr [.obj respelledComponent]), ("removed_ids", .arr [.str "a"]),
   ("type", .str "components_combined"), ("version", .bool true)]

theorem respells_component :
    SavedComponent.shape.Respells (fun _ => Eq) plainComponent respelledComponent := by
  have same : SavedComponent.shape.Respells (fun _ => Eq) plainComponent plainComponent :=
    .refl (fun _ _ => rfl) (by decide)
  have moved := same.move (.spelled "chat_id" "chatId") (.inl rfl) (by decide) rfl rfl
  exact moved.insert "note" (.arr [.null]) (by decide)

theorem respells_frame : Respells "components_combined" plainFrame respelledFrame where
  ourType := rfl
  theirType := rfl
  body := by
    have added : (heldIn "components_combined" "new_components").Related
        (.arr [.obj plainComponent]) (.arr [.obj respelledComponent]) :=
      .items (.cons (.fields respells_component) .nil)
    exact ⟨by decide, List.forall_mem_cons.mpr
      ⟨.some rfl, List.forall_mem_singleton.mpr (.some added)⟩⟩

theorem respelled_combination_reads_alike :
    Respells "components_combined" plainFrame respelledFrame ∧
      ∃ frame, parse (Json.obj plainFrame).compact = .ok frame ∧
        parse (Json.obj respelledFrame).compact = .ok frame := by
  have plain : Json.read? (Json.obj plainFrame).compact = some (.obj plainFrame) :=
    Json.read?_compact (by decide)
  have respelled : Json.read? (Json.obj respelledFrame).compact = some (.obj respelledFrame) :=
    Json.read?_compact (by decide)
  have alike := (respelled_frames_read_alike respells_frame).2 _ _ plain respelled
  have good : ∃ frame, parse (Json.obj plainFrame).compact = .ok frame := by
    rw [parse, plain]
    exact ⟨_, rfl⟩
  obtain ⟨frame, read⟩ := good
  exact ⟨respells_frame, frame, read, alike.symm.trans read⟩

end Frame
end Liveboard
