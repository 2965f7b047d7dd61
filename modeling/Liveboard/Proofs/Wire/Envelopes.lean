/-
  Liveboard/Proofs/Wire/Envelopes.lean
  ====================================
  **What the client sends can be decoded, and says what was asked.**

  An envelope decodes to itself from its text, whichever of its fields are absent.  Two
  events are the same value only if they carry the same action of the same session: the
  name says which fields the payload has, an absent chat is null and no text, and a component
  that reads back from its own value is told apart by it.
-/
import Liveboard.Proofs.Json.Printing
import Liveboard.Proofs.Json.Records
import Liveboard.Wire.Envelope

namespace Liveboard

namespace Json

theorem asList?_strings (items : List String) :
    (Json.arr (items.map .str)).asList? asString? = some items := by
  rw [asList?]
  induction items with
  | nil => rfl
  | cons item items ih => simp only [List.map_cons, List.mapM_cons, ih, asString?]; rfl

end Json

namespace Envelope

variable {α : Type} {encode : α → Json} {a? : Option α}

/-! ### Reading an envelope back -/

theorem get?_present (key : String) (encode : α → Json) (a? : Option α) (other : String) :
    Fields.get? (present key encode a?) other = if other = key then a?.map encode else none := by
  cases a? with
  | none => simp [present]
  | some a => simp [present, Fields.get?_cons]

theorem keys_present (key : String) (encode : α → Json) (a? : Option α) :
    List.Sublist ((present key encode a?).map (·.1)) [key] := by
  cases a? with
  | none => exact List.nil_sublist _
  | some a => exact List.Sublist.refl _

/-- The fields of an envelope in wire order. -/
def entries (envelope : Envelope) : Fields :=
  [("type", Json.str envelope.kind.name)] ++
    present "action" .str envelope.action ++
    present "session_id" .str envelope.sessionId ++
    [("payload", envelope.payload)] ++
    present "token" .str envelope.token ++
    present "capabilities" strings envelope.capabilities

theorem nodup_entries (envelope : Envelope) : (envelope.entries.map (·.1)).Nodup := by
  have keys : List.Sublist (envelope.entries.map (·.1)) (shape.map (·.name)) := by
    simp only [entries, List.map_append]
    exact ((((List.Sublist.refl ["type"]).append (keys_present ..)).append (keys_present ..)).append
      (List.Sublist.refl ["payload"])).append (keys_present ..) |>.append (keys_present ..)
  exact keys.nodup (by decide)

/-- What is found in the fields of an envelope, kept in a record. -/
structure Holds (envelope : Envelope) (record : Fields) : Prop where
  kind : Fields.get? record "type" = some (.str envelope.kind.name)
  action : Fields.get? record "action" = envelope.action.map .str
  sessionId : Fields.get? record "session_id" = envelope.sessionId.map .str
  payload : Fields.get? record "payload" = some envelope.payload
  token : Fields.get? record "token" = envelope.token.map .str
  capabilities : Fields.get? record "capabilities" = envelope.capabilities.map strings

theorem exists_holds (envelope : Envelope) (plain : envelope.payload.IsCanonical) :
    ∃ record, shape.record? envelope.wire.canonical = some record ∧ envelope.Holds record := by
  have plainNames : ∀ field ∈ shape, field.alias? = none := by decide
  have single : ∀ field ∈ shape, ∀ other ∈ field.alias?, other ∉ envelope.entries.map (·.1) := by
    intro field mem other spelled
    rw [plainNames field mem] at spelled
    cases spelled
  obtain ⟨record, read, found⟩ := Shape.exists_record_of_written envelope.nodup_entries single
  have under : ∀ key, .plain key ∈ shape → Fields.get? record key =
      (Fields.get? envelope.entries key).map Json.canonical := fun key mem => found (.plain key) mem
  have text : Json.canonical ∘ Json.str = Json.str := rfl
  have list : Json.canonical ∘ strings = strings := by
    funext items
    simp [strings, Json.canonical, Json.canonicalItems_eq_map]
  refine ⟨record, read, ?_, ?_, ?_, ?_, ?_, ?_⟩
  · rw [under "type" (by decide)]
    simp [entries, Fields.get?_cons, Json.canonical]
  · rw [under "action" (by decide)]
    simp [entries, Fields.get?_append, get?_present, Fields.get?_cons, text]
  · rw [under "session_id" (by decide)]
    simp [entries, Fields.get?_append, get?_present, Fields.get?_cons, text]
  · rw [under "payload" (by decide)]
    have same : envelope.payload.canonical = envelope.payload := plain
    simp [entries, Fields.get?_append, get?_present, Fields.get?_cons, same]
  · rw [under "token" (by decide)]
    simp [entries, Fields.get?_append, get?_present, Fields.get?_cons, text]
  · rw [under "capabilities" (by decide)]
    simp [entries, Fields.get?_append, get?_present, Fields.get?_cons, list]

theorem ofJson?_wire (envelope : Envelope) (plain : envelope.payload.IsCanonical) :
    ofJson? envelope.wire.canonical = some envelope := by
  obtain ⟨record, read, holds⟩ := exists_holds envelope plain
  have noText : ∀ text : String, Json.str text ≠ .null := fun _ same => by cases same
  have text : ∀ text : String, (Json.str text).asString? = some text := fun _ => rfl
  have noList : ∀ items : List String, strings items ≠ .null := fun _ same => by cases same
  have list : ∀ items : List String, (strings items).asList? Json.asString? = some items :=
    Json.asList?_strings
  have kind : (Fields.required? record "type" fun tag =>
      (tag.asTag? .null).bind EnvelopeKind.ofName?) = some envelope.kind := by
    rw [Fields.required?_of_get? holds.kind]
    simp [Json.asTag?]
  simp only [ofJson?, read, kind, Fields.optional?_of_map holds.action noText text,
    Fields.optional?_of_map holds.sessionId noText text, Fields.defaulted?_of_get? holds.payload,
    Fields.optional?_of_map holds.token noText text,
    Fields.optional?_of_map holds.capabilities noList list, Option.bind_eq_bind, Option.bind_some]

end Envelope

/-! ### Reading an action back -/

namespace Action

def component? : Action → Option Component
  | save _ component _ _ => some component
  | _ => none

/-- The component of the action, if it has one, is what its own plain value reads as. -/
def IsSelfReading (action : Action) : Prop :=
  ∀ component ∈ action.component?, Component.ofJson? component.toJson = some component

/-- The action that an event of such a name carries in the fields of its payload. -/
def ofFields? (name : String) (fields : Fields) : Option Action := do
  let text := fun key => Fields.required? fields key Json.asString?
  let text? := fun key => Fields.optional? fields key Json.asString?
  match name with
  | "chat_message" => some (.chatMessage (← text "content") (← text? "chat_id"))
  | "load_chat" => some (.loadChat (← text "chat_id"))
  | "new_chat" => some .newChat
  | "get_saved_components" => some (.getSaved (← text? "chat_id"))
  | "save_component" =>
    some (.save (← text? "chat_id") (← Fields.required? fields "component_data" Component.ofJson?)
      (← text "component_type") (← text? "title"))
  | "delete_saved_component" => some (.deleteSaved (← text "component_id"))
  | "combine_components" =>
    some (.combine (← text? "chat_id")
      (← Fields.required? fields "component_ids" (Json.asList? Json.asString?)))
  | "condense_components" => some (.condense (← text? "chat_id"))
  | "discover_agents" => some .discoverAgents
  | "get_history" => some .getHistory
  | _ => none

def ofPayload? (name : String) : Json → Option Action
  | .obj fields => ofFields? name fields
  | _ => none

section Payloads

variable {α : Type} {key other : String} (value : Json) (fields : Fields)
  (decode : Json → Option α)

theorem required?_cons_self :
    Fields.required? ((key, value) :: fields) key decode = decode value :=
  Fields.required?_of_get? (by rw [Fields.get?_cons, if_pos rfl])

theorem required?_cons_of_ne (apart : key ≠ other) :
    Fields.required? ((other, value) :: fields) key decode =
      Fields.required? fields key decode := by
  rw [Fields.required?, Fields.get?_cons, if_neg apart, Fields.required?]

theorem optional?_cons_of_ne (apart : key ≠ other) :
    Fields.optional? ((other, value) :: fields) key decode =
      Fields.optional? fields key decode := by
  rw [Fields.optional?, Fields.get?_cons, if_neg apart, Fields.optional?]

/-- Absent is null, and an empty text is not. -/
theorem optional?_textOrNull (text? : Option String) :
    Fields.optional? ((key, textOrNull text?) :: fields) key Json.asString? = some text? := by
  rw [Fields.optional?, Fields.get?_cons, if_pos rfl]
  cases text? with
  | none => rfl
  | some text => rfl

end Payloads

theorem ofPayload?_payload (action : Action) (self : action.IsSelfReading) :
    ofPayload? action.name action.payload = some action := by
  cases action with
  | chatMessage content chatId =>
    simp [name, payload, ofPayload?, ofFields?, optional?_textOrNull, required?_cons_of_ne,
      required?_cons_self, Json.asString?]
  | loadChat chatId =>
    simp [name, payload, ofPayload?, ofFields?, required?_cons_self, Json.asString?]
  | newChat => rfl
  | getSaved chatId =>
    simp [name, payload, ofPayload?, ofFields?, optional?_textOrNull]
  | save chatId component kindName title =>
    have read := self component rfl
    simp [name, payload, ofPayload?, ofFields?, optional?_textOrNull, optional?_cons_of_ne,
      required?_cons_of_ne, required?_cons_self, Json.asString?, read]
  | deleteSaved componentId =>
    simp [name, payload, ofPayload?, ofFields?, required?_cons_self, Json.asString?]
  | combine chatId componentIds =>
    simp [name, payload, ofPayload?, ofFields?, optional?_textOrNull, required?_cons_of_ne,
      required?_cons_self, Json.asList?_strings]
  | condense chatId =>
    simp [name, payload, ofPayload?, ofFields?, optional?_textOrNull]
  | discoverAgents => rfl
  | getHistory => rfl

theorem isCanonical_textOrNull (text? : Option String) : (textOrNull text?).IsCanonical := by
  cases text? <;> rfl

theorem isCanonical_strings (texts : List String) : (Json.arr (texts.map .str)).IsCanonical := by
  refine Json.isCanonical_arr_iff.mpr fun item mem => ?_
  obtain ⟨text, -, rfl⟩ := List.mem_map.mp mem
  rfl

theorem isCanonical_payload (action : Action) : action.payload.IsCanonical := by
  have text : ∀ text : String, (Json.str text).IsCanonical := fun _ => rfl
  cases action with
  | chatMessage content chatId =>
    refine Json.isCanonical_obj_of_keys
      (show ["chat_id", "content"].Pairwise (· < ·) by decide) ?_
    simp [isCanonical_textOrNull, text]
  | loadChat chatId =>
    refine Json.isCanonical_obj_of_keys (List.pairwise_singleton _ _) ?_
    simp [text]
  | getSaved chatId =>
    refine Json.isCanonical_obj_of_keys (List.pairwise_singleton _ _) ?_
    simp [isCanonical_textOrNull]
  | save chatId component kindName title =>
    refine Json.isCanonical_obj_of_keys
      (show ["chat_id", "component_data", "component_type", "title"].Pairwise (· < ·) by decide) ?_
    simp [isCanonical_textOrNull, text, Component.toJson, Json.isCanonical_canonical]
  | deleteSaved componentId =>
    refine Json.isCanonical_obj_of_keys (List.pairwise_singleton _ _) ?_
    simp [text]
  | combine chatId componentIds =>
    refine Json.isCanonical_obj_of_keys
      (show ["chat_id", "component_ids"].Pairwise (· < ·) by decide) ?_
    simp [isCanonical_textOrNull, isCanonical_strings]
  | condense chatId =>
    refine Json.isCanonical_obj_of_keys (List.pairwise_singleton _ _) ?_
    simp [isCanonical_textOrNull]
  | newChat | discoverAgents | getHistory => rfl

end Action

namespace Envelope

/-- Of events, the value determines action and session. -/
theorem ofAction_injective {a b : Action} {s t : Option String} (selfA : a.IsSelfReading)
    (selfB : b.IsSelfReading)
    (same : (ofAction a s).wire.canonical = (ofAction b t).wire.canonical) : a = b ∧ s = t := by
  have whole : ofAction a s = ofAction b t := by
    have first := ofJson?_wire (ofAction a s) a.isCanonical_payload
    rw [same, ofJson?_wire (ofAction b t) b.isCanonical_payload, Option.some.injEq] at first
    exact first.symm
  obtain ⟨-, names, sessions, payloads, -, -⟩ := Envelope.mk.inj whole
  refine ⟨?_, sessions⟩
  have first := Action.ofPayload?_payload a selfA
  rw [Option.some.inj names, payloads, Action.ofPayload?_payload b selfB,
    Option.some.injEq] at first
  exact first.symm

/-- An envelope whose payload is a plain value is decoded from its text, as far as that nests
    no deeper than the reader goes and its numbers read back; and events of different actions
    or sessions are different values, components being told apart by what they read back as. -/
theorem decodable_and_unambiguous :
    (∀ envelope : Envelope, envelope.payload.IsCanonical →
      envelope.wire.isLegible Json.maxDepth = true →
        (Json.read? envelope.text).bind ofJson? = some envelope) ∧
    (∀ (a b : Action) (s t : Option String), a.IsSelfReading → b.IsSelfReading →
      (ofAction a s).wire.canonical = (ofAction b t).wire.canonical → a = b ∧ s = t) := by
  refine ⟨?_, ?_⟩
  · intro envelope plain legible
    rw [text, Json.read?_compact legible]
    exact ofJson?_wire envelope plain
  · intro a b s t selfA selfB same
    exact ofAction_injective selfA selfB same

/-- A card with an empty id, an attribute that is null and children under `content`. -/
def card : Component :=
  ⟨"card", some "", [("n", .num (.integer (-7))), ("title", .null)],
    [⟨"text", none, [("content", .str "a\n\"")], [], .children⟩], .content⟩

/-- Saving it without naming a chat, under an empty title. -/
def savingCard : Action := .save none card "" (some "")

theorem decodable_and_unambiguous_savingCard :
    (ofAction savingCard none).text =
      "\x7b\"type\":\"ui_event\",\"action\":\"save_component\",\"payload\":\x7b\"chat_id\":null," ++
        "\"component_data\":\x7b\"content\":" ++
        "[\x7b\"content\":\"a\\n\\\"\",\"kind\":\"text\"\x7d]," ++
        "\"id\":\"\",\"kind\":\"card\",\"n\":-7,\"title\":null\x7d," ++
        "\"component_type\":\"\",\"title\":\"\"\x7d\x7d" ∧
    savingCard.payload.IsCanonical ∧
    (ofAction savingCard none).wire.isLegible Json.maxDepth = true ∧
    (Json.read? (ofAction savingCard none).text).bind ofJson? = some (ofAction savingCard none) ∧
    savingCard.IsSelfReading ∧ (savingCard = savingCard ∧ (none : Option String) = none) ∧
    (ofAction savingCard none).wire.canonical ≠
      (ofAction (savingCard.scopedTo (some "")) none).wire.canonical := by
  have plain := savingCard.isCanonical_payload
  have legible : (ofAction savingCard none).wire.isLegible Json.maxDepth = true := by
    decide +kernel
  have self : savingCard.IsSelfReading := by
    intro component mem
    cases mem
    rfl
  have selfScoped : (savingCard.scopedTo (some "")).IsSelfReading := by
    intro component mem
    cases mem
    rfl
  refine ⟨by decide +kernel, plain, legible, decodable_and_unambiguous.1 _ plain legible, self,
    decodable_and_unambiguous.2 _ _ none none self self rfl, ?_⟩
  intro same
  cases (decodable_and_unambiguous.2 _ _ none none self selfScoped same).1

end Envelope
end Liveboard
