/-
  Liveboard/Proofs/Data/Rereading.lean
  ====================================
  **What was read survives being written and read again.**

  The readers of agents, chats, messages and saved components accept more than the writers
  produce: other spellings, nulls for defaults, numbers for texts, further fields, kinds
  outside the catalog.  Whatever they made of a plain value, writing it and reading that gives
  it back, but for the slot of components without children; so a second writing equals the
  first (`rereading_is_stable`).

  For each record the fields that were written are found under their names, and each of them
  decodes to what it was written for: a forest because it is known and well formed, a timestamp
  because it is regular.
-/
import Liveboard.Data.Agent
import Liveboard.Data.Chat
import Liveboard.Data.Library
import Liveboard.Json.Reader
import Liveboard.Proofs.Component.Known
import Liveboard.Proofs.Json.Records
import Liveboard.Proofs.Time.Timestamp

namespace Liveboard

/-! ### Timestamps -/

namespace Time.Instant

theorem isRegular_of_defaulted? {record : Fields} {key : String} {t? : Option Instant}
    (read : Fields.defaulted? record key none (some ∘ Instant.ofJson?) = some t?) :
    ∀ t ∈ t?, t.IsRegular := by
  unfold Fields.defaulted? at read
  split at read
  · rw [Function.comp_apply, Option.some.injEq] at read
    rw [← read]
    intro t mem
    exact isRegular_of_ofJson? mem
  · cases read
    intro t mem
    cases mem

theorem defaulted?_written {record : Fields} {key : String} {t? : Option Instant}
    (regular : ∀ t ∈ t?, t.IsRegular) (plain : ∀ t ∈ t?, t.HasPlainYear)
    (found : Fields.get? record key = some (Json.ofOption toJson t?).canonical) :
    Fields.defaulted? record key none (some ∘ Instant.ofJson?) = some t? := by
  rw [Fields.defaulted?_of_get? found]
  cases t? with
  | none => rfl
  | some t => exact congrArg some (ofJson?_toJson (regular t rfl) (plain t rfl))

end Time.Instant

/-! ### Chats -/

namespace Chat

theorem isRegular_of_ofJson? {json : Json} {chat : Chat} (read : ofJson? json = some chat) :
    ∀ t ∈ chat.updatedAt, t.IsRegular := by
  unfold ofJson? at read
  obtain ⟨record, -, read⟩ := Option.bind_eq_some_iff.mp read
  obtain ⟨id, -, read⟩ := Option.bind_eq_some_iff.mp read
  obtain ⟨title, -, read⟩ := Option.bind_eq_some_iff.mp read
  obtain ⟨updatedAt, timestamp, read⟩ := Option.bind_eq_some_iff.mp read
  obtain ⟨hasSaved, -, read⟩ := Option.bind_eq_some_iff.mp read
  cases read
  exact Time.Instant.isRegular_of_defaulted? timestamp

/-- The fields of a chat in wire order. -/
def entries (chat : Chat) : Fields :=
  [("id", .str chat.id), ("title", .str chat.title),
    ("updated_at", Json.ofOption Time.Instant.toJson chat.updatedAt),
    ("has_saved_components", .bool chat.hasSavedComponents)]

theorem ofJson?_wire (chat : Chat) (regular : ∀ t ∈ chat.updatedAt, t.IsRegular)
    (plain : ∀ t ∈ chat.updatedAt, t.HasPlainYear) :
    ofJson? chat.wire.canonical = some chat := by
  have distinct : (chat.entries.map (·.1)).Nodup := by simp [entries]
  have spellings : ∀ field ∈ shape, ∀ other ∈ field.alias?, other ∉ chat.entries.map (·.1) := by
    simp [shape, FieldName.plain, FieldName.spelled, entries]
  obtain ⟨record, read, found⟩ := Shape.exists_record_of_written distinct spellings
  have id : Fields.get? record "id" = some (.str chat.id) := found (.plain "id") (by decide)
  have title : Fields.get? record "title" = some (.str chat.title) :=
    found (.plain "title") (by decide)
  have updatedAt : Fields.get? record "updated_at" =
      some (Json.ofOption Time.Instant.toJson chat.updatedAt).canonical :=
    found (.spelled "updated_at" "updatedAt") (by decide)
  have hasSaved : Fields.get? record "has_saved_components" =
      some (.bool chat.hasSavedComponents) :=
    found (.spelled "has_saved_components" "hasSavedComponents") (by decide)
  have timestamp := Time.Instant.defaulted?_written regular plain updatedAt
  have same : chat.wire = .obj chat.entries := rfl
  rw [same, ofJson?, read]
  simp [Fields.required?_of_get? id, Fields.nullable?_of_get? title, timestamp,
    Fields.nullable?_of_get? hasSaved, Json.asString?, Json.asBool?]

end Chat

/-! ### Messages -/

namespace Content

/-- The same content with the slot of all components without children set to `children`. -/
def settled : Content → Content
  | .text said => .text said
  | .components forest => .components (Component.settledAll forest)

theorem wire_settled (content : Content) : content.settled.wire = content.wire := by
  cases content with
  | text said => rfl
  | components forest => rw [settled, wire, wire, Component.wireAll_settledAll]

/-- A content that was read is read back from what is written for it. -/
theorem ofJson_wire {json : Json} (canonical : json.IsCanonical) :
    ofJson (ofJson json).wire.canonical = (ofJson json).settled := by
  have forest : ∀ json : Json, json.IsCanonical →
      ofJson (Content.components (Forest.ofJson json)).wire.canonical =
        (Content.components (Forest.ofJson json)).settled := by
    intro json canonical
    have back := Forest.ofJson_written (Forest.areKnown_ofJson json)
      (Forest.areWellFormed_ofJson canonical)
    rw [wire, Json.canonical, Component.canonicalItems_wireAll, ofJson, back, settled]
  cases json with
  | arr items => exact forest (.arr items) canonical
  | obj fields => exact forest (.obj fields) canonical
  | _ => rfl

end Content

namespace Message

def settled (message : Message) : Message := ⟨message.speaker, message.content.settled⟩

theorem wire_settled (message : Message) : message.settled.wire = message.wire := by
  rw [wire, settled, Content.wire_settled, wire]

/-- What a message says was read from some plain value, if only from null. -/
theorem exists_content_of_ofJson? {empties : Json.Empties} {json : Json} {message : Message}
    (canonical : json.IsCanonical) (read : ofJson? empties json = some message) :
    ∃ value : Json, value.IsCanonical ∧ message.content = Content.ofJson value := by
  unfold ofJson? at read
  obtain ⟨record, shaped, read⟩ := Option.bind_eq_some_iff.mp read
  obtain ⟨speaker, -, read⟩ := Option.bind_eq_some_iff.mp read
  obtain ⟨content, said, read⟩ := Option.bind_eq_some_iff.mp read
  cases read
  unfold Fields.defaulted? at said
  split at said
  · next value found =>
    cases said
    exact ⟨value, Shape.isCanonical_of_record? canonical shaped _ (Fields.mem_of_get? found), rfl⟩
  · cases said
    exact ⟨.null, rfl, rfl⟩

/-- The fields of a message in wire order. -/
def entries (message : Message) : Fields :=
  [("role", .str message.speaker.name), ("content", message.content.wire)]

theorem ofJson?_wire (empties : Json.Empties) {message : Message} {value : Json}
    (canonical : value.IsCanonical) (said : message.content = Content.ofJson value) :
    ofJson? empties message.wire.canonical = some message.settled := by
  have distinct : (message.entries.map (·.1)).Nodup := by simp [entries]
  have spellings : ∀ field ∈ shape, ∀ other ∈ field.alias?,
      other ∉ message.entries.map (·.1) := by
    simp [shape, FieldName.plain, entries]
  obtain ⟨record, read, found⟩ := Shape.exists_record_of_written distinct spellings
  have speaker : Fields.get? record "role" = some (.str message.speaker.name) :=
    found (.plain "role") (by decide)
  have content : Fields.get? record "content" = some message.content.wire.canonical :=
    found (.plain "content") (by decide)
  have back : Content.ofJson message.content.wire.canonical = message.content.settled := by
    rw [said, Content.ofJson_wire canonical]
  have same : message.wire = .obj message.entries := rfl
  rw [same, ofJson?, read]
  simp [Fields.required?_of_get? speaker, Fields.defaulted?_of_get? content, Speaker.ofJson?,
    Json.asTag?, back, settled]

end Message

/-! ### Saved components -/

namespace SavedComponent

def settled (saved : SavedComponent) : SavedComponent :=
  { saved with component := saved.component.settled }

theorem wire_settled (saved : SavedComponent) : saved.settled.wire = saved.wire := by
  simp only [wire, settled, Component.wire_settled]

theorem isWellFormed_of_ofJson? {json : Json} {saved : SavedComponent}
    (canonical : json.IsCanonical) (read : ofJson? json = some saved) :
    saved.component.IsWellFormed ∧ ∀ t ∈ saved.createdAt, t.IsRegular := by
  unfold ofJson? at read
  obtain ⟨record, shaped, read⟩ := Option.bind_eq_some_iff.mp read
  obtain ⟨id, -, read⟩ := Option.bind_eq_some_iff.mp read
  obtain ⟨chatId, -, read⟩ := Option.bind_eq_some_iff.mp read
  obtain ⟨component, data, read⟩ := Option.bind_eq_some_iff.mp read
  obtain ⟨kindName, -, read⟩ := Option.bind_eq_some_iff.mp read
  obtain ⟨title, -, read⟩ := Option.bind_eq_some_iff.mp read
  obtain ⟨createdAt, timestamp, read⟩ := Option.bind_eq_some_iff.mp read
  cases read
  obtain ⟨value, found, data⟩ := Option.bind_eq_some_iff.mp data
  have plain := Shape.isCanonical_of_record? canonical shaped _ (Fields.mem_of_get? found)
  exact ⟨Component.isWellFormed_of_ofJson? value plain component data,
    Time.Instant.isRegular_of_defaulted? timestamp⟩

/-- The fields of a saved component in wire order. -/
def entries (saved : SavedComponent) : Fields :=
  [("id", .str saved.id), ("chat_id", .str saved.chatId),
    ("component_data", saved.component.wire), ("component_type", .str saved.kindName),
    ("title", .str saved.title), ("created_at", Json.ofOption Time.Instant.toJson saved.createdAt)]

theorem ofJson?_wire (saved : SavedComponent) (wellFormed : saved.component.IsWellFormed)
    (regular : ∀ t ∈ saved.createdAt, t.IsRegular)
    (plain : ∀ t ∈ saved.createdAt, t.HasPlainYear) :
    ofJson? saved.wire.canonical = some saved.settled := by
  have distinct : (saved.entries.map (·.1)).Nodup := by simp [entries]
  have spellings : ∀ field ∈ shape, ∀ other ∈ field.alias?, other ∉ saved.entries.map (·.1) := by
    simp [shape, FieldName.plain, FieldName.spelled, entries]
  obtain ⟨record, read, found⟩ := Shape.exists_record_of_written distinct spellings
  have id : Fields.get? record "id" = some (.str saved.id) := found (.plain "id") (by decide)
  have chatId : Fields.get? record "chat_id" = some (.str saved.chatId) :=
    found (.spelled "chat_id" "chatId") (by decide)
  have data : Fields.get? record "component_data" = some saved.component.toJson :=
    found (.spelled "component_data" "componentData") (by decide)
  have kindName : Fields.get? record "component_type" = some (.str saved.kindName) :=
    found (.spelled "component_type" "componentType") (by decide)
  have title : Fields.get? record "title" = some (.str saved.title) :=
    found (.plain "title") (by decide)
  have createdAt : Fields.get? record "created_at" =
      some (Json.ofOption Time.Instant.toJson saved.createdAt).canonical :=
    found (.spelled "created_at" "createdAt") (by decide)
  have timestamp := Time.Instant.defaulted?_written regular plain createdAt
  have component := Component.ofJson?_toJson saved.component wellFormed
  have same : saved.wire = .obj saved.entries := rfl
  rw [same, ofJson?, read]
  simp [Fields.required?_of_get? id, Fields.required?_of_get? chatId,
    Fields.required?_of_get? data, component, Fields.required?_of_get? kindName,
    Fields.nullable?_of_get? title, timestamp, Json.asString?, settled]

end SavedComponent

/-! ### Agents -/

namespace Agent

/-- Whatever else is said about the agent is a map from other keys to plain values. -/
structure IsWellFormed (agent : Agent) : Prop where
  canonical : (Json.obj agent.extra).IsCanonical
  others : ∀ field ∈ agent.extra, field.1 ∉ ownKeys

theorem isWellFormed_of_ofJson? {json : Json} {agent : Agent} (canonical : json.IsCanonical)
    (read : ofJson? json = some agent) : agent.IsWellFormed := by
  unfold ofJson? at read
  split at read
  · next fields =>
    obtain ⟨sorted, values⟩ := Json.isCanonical_obj_iff.mp canonical
    obtain ⟨id, -, read⟩ := Option.bind_eq_some_iff.mp read
    obtain ⟨name, -, read⟩ := Option.bind_eq_some_iff.mp read
    obtain ⟨description, -, read⟩ := Option.bind_eq_some_iff.mp read
    cases read
    constructor
    · exact Json.isCanonical_obj_iff.mpr ⟨sorted.sublist List.filter_sublist,
        fun field mem => values field (List.mem_filter.mp mem).1⟩
    · intro field mem
      simpa using (List.mem_filter.mp mem).2
  · cases read

/-- What stands under the keys of its own. -/
def ownFields (agent : Agent) : Fields :=
  ("id", .str agent.id) ::
    (agent.name.toList.map fun name => ("name", Json.str name)) ++
    (agent.description.toList.map fun text => ("description", Json.str text))

theorem get?_ownFields (agent : Agent) (key : String) :
    Fields.get? agent.ownFields key =
      if key = "id" then some (.str agent.id)
      else (if key = "name" then agent.name.map .str else none).or
        (if key = "description" then agent.description.map .str else none) := by
  rw [ownFields, Fields.get?_append, Fields.get?_cons, Fields.get?_toList_map,
    Fields.get?_toList_map]
  by_cases id : key = "id"
  · rw [if_pos id, if_pos id, Option.some_or]
  · rw [if_neg id, if_neg id]

theorem keys_ownFields (agent : Agent) : List.Sublist (agent.ownFields.map (·.1)) ownKeys := by
  cases name : agent.name <;> cases description : agent.description <;>
    simp [ownFields, name, description, ownKeys]

/-- The fields of an agent in wire order. -/
def entries (agent : Agent) : Fields := agent.ownFields ++ agent.extra

theorem nodup_entries {agent : Agent} (wellFormed : agent.IsWellFormed) :
    (agent.entries.map (·.1)).Nodup := by
  rw [entries, List.map_append, List.nodup_append]
  refine ⟨agent.keys_ownFields.nodup (by decide), ?_, ?_⟩
  · exact wellFormed.canonical.sorted.nodup_keys
  · intro key own other extra same
    obtain ⟨field, mem, rfl⟩ := List.mem_map.mp extra
    exact wellFormed.others field mem (same ▸ agent.keys_ownFields.subset own)

theorem canonicalFields_entries {agent : Agent} (wellFormed : agent.IsWellFormed) :
    Json.canonicalFields agent.entries = agent.entries := by
  refine Json.canonicalFields_eq_self_iff.mpr fun field mem => ?_
  rcases List.mem_append.mp mem with own | extra
  · simp only [ownFields, List.cons_append, List.mem_cons, List.mem_append, List.mem_map] at own
    rcases own with rfl | ⟨_, -, rfl⟩ | ⟨_, -, rfl⟩ <;> rfl
  · exact (Json.isCanonical_obj_iff.mp wellFormed.canonical).2 field extra

theorem get?_extra {agent : Agent} (wellFormed : agent.IsWellFormed) {key : String}
    (own : key ∈ ownKeys) : Fields.get? agent.extra key = none := by
  refine Fields.get?_eq_none_iff.mpr fun key' => ?_
  obtain ⟨field, mem, rfl⟩ := List.mem_map.mp key'
  exact wellFormed.others field mem own

/-- The own keys and the others are told apart again. -/
theorem filter_written {agent : Agent} (wellFormed : agent.IsWellFormed) :
    ((Fields.ofList agent.entries).filter fun field => !ownKeys.contains field.1) =
      agent.extra := by
  have sorted : Fields.IsSorted
      ((Fields.ofList agent.entries).filter fun field => !ownKeys.contains field.1) :=
    (Fields.isSorted_ofList agent.entries).sublist List.filter_sublist
  refine sorted.ext wellFormed.canonical.sorted fun key => ?_
  rw [Fields.get?_filter (fun key => !ownKeys.contains key),
    Fields.get?_ofList_of_nodup (nodup_entries wellFormed), entries, Fields.get?_append]
  by_cases own : key ∈ ownKeys
  · simp [own, get?_extra wellFormed own]
  · have foreign : Fields.get? agent.ownFields key = none :=
      Fields.get?_eq_none_iff.mpr fun mem => own (agent.keys_ownFields.subset mem)
    simp [own, foreign]

theorem ofJson?_wire {agent : Agent} (wellFormed : agent.IsWellFormed) :
    ofJson? agent.wire.canonical = some agent := by
  have same : agent.wire.canonical = .obj (Fields.ofList agent.entries) := by
    have written : agent.wire = .obj agent.entries := rfl
    rw [written, Json.canonical, canonicalFields_entries wellFormed]
  have found : ∀ key ∈ ownKeys, Fields.get? (Fields.ofList agent.entries) key =
      Fields.get? agent.ownFields key := by
    intro key own
    rw [Fields.get?_ofList_of_nodup (nodup_entries wellFormed), entries, Fields.get?_append,
      get?_extra wellFormed own, Option.or_none]
  have id : Fields.get? (Fields.ofList agent.entries) "id" = some (.str agent.id) :=
    found "id" (by decide)
  have name : Fields.get? (Fields.ofList agent.entries) "name" = agent.name.map .str := by
    rw [found "name" (by decide), get?_ownFields]
    simp
  have description : Fields.get? (Fields.ofList agent.entries) "description" =
      agent.description.map .str := by
    rw [found "description" (by decide), get?_ownFields]
    simp
  have noNull : ∀ text : String, Json.str text ≠ .null := fun _ same => by cases same
  have back : ∀ text : String, (Json.str text).asString? = some text := fun _ => rfl
  rw [same, ofJson?, filter_written wellFormed, Fields.optional?_of_map name noNull back,
    Fields.optional?_of_map description noNull back, Fields.required?_of_get? id]
  rfl

end Agent

/-! ### All of them -/

/-- Whatever the readers make of a plain value, they make it again of what is written for it,
    the slot of components without children apart; and written again it is the same.
    Timestamps are assumed to be of years with four digits, others are not read back. -/
theorem rereading_is_stable :
    (∀ {json agent}, json.IsCanonical → Agent.ofJson? json = some agent →
      Agent.ofJson? agent.wire.canonical = some agent) ∧
    (∀ {json chat}, Chat.ofJson? json = some chat → (∀ t ∈ chat.updatedAt, t.HasPlainYear) →
      Chat.ofJson? chat.wire.canonical = some chat) ∧
    (∀ {json message} (empties again : Json.Empties), json.IsCanonical →
      Message.ofJson? empties json = some message →
      Message.ofJson? again message.wire.canonical = some message.settled ∧
        message.settled.wire = message.wire) ∧
    (∀ {json saved}, json.IsCanonical → SavedComponent.ofJson? json = some saved →
      (∀ t ∈ saved.createdAt, t.HasPlainYear) →
      SavedComponent.ofJson? saved.wire.canonical = some saved.settled ∧
        saved.settled.wire = saved.wire) := by
  refine ⟨?_, ?_, ?_, ?_⟩
  · intro json agent canonical read
    exact Agent.ofJson?_wire (Agent.isWellFormed_of_ofJson? canonical read)
  · intro json chat read plain
    exact chat.ofJson?_wire (Chat.isRegular_of_ofJson? read) plain
  · intro json message empties again canonical read
    obtain ⟨value, plain, said⟩ := Message.exists_content_of_ofJson? canonical read
    exact ⟨Message.ofJson?_wire again plain said, message.wire_settled⟩
  · intro json saved canonical read plain
    obtain ⟨wellFormed, regular⟩ := SavedComponent.isWellFormed_of_ofJson? canonical read
    exact ⟨saved.ofJson?_wire wellFormed regular plain, saved.wire_settled⟩

/-- A null name, and a key that differs from it in case only. -/
def agentText : String :=
  "\x7b\"zone\":[1,\x7b\"b\":2,\"a\":null\x7d],\"id\":\"a\",\"name\":null,\"Name\":\"x\"\x7d"

/-- The leading fields in order, the title null, the timestamp in milliseconds. -/
def chatText : String := "[\"c\",null,1740830400250]"

/-- A role that is not known, an item that is no component, a kind outside the catalog. -/
def messageText : String :=
  "\x7b\"role\":\"robot\",\"content\":" ++
    "[7,\x7b\"type\":\"card\",\"content\":[\x7b\"kind\":\"hologram\"\x7d]\x7d]\x7d"

/-- Other spellings, no title, a leap second without offset between blanks. -/
def savedText : String :=
  "\x7b\"id\":\"s\",\"chatId\":\"c\"," ++
    "\"componentData\":\x7b\"kind\":\"hologram\",\"content\":[]\x7d," ++
    "\"component_type\":\"\",\"createdAt\":\" 2024-06-30 23:59:60.25 \"\x7d"

theorem exists_of_read {α : Type} {text : String} {decode : Json → Option α} {good : α → Bool}
    (whole : ((Json.read? text).bind decode).any good = true) :
    ∃ json a, Json.read? text = some json ∧ decode json = some a ∧ good a = true := by
  cases found : (Json.read? text).bind decode with
  | none =>
    rw [found] at whole
    cases whole
  | some a =>
    rw [found] at whole
    obtain ⟨json, text, read⟩ := Option.bind_eq_some_iff.mp found
    exact ⟨json, a, text, read, whole⟩

theorem rereading_is_stable_lenient :
    (∃ json agent, Json.read? agentText = some json ∧ Agent.ofJson? json = some agent ∧
      Agent.ofJson? agent.wire.canonical = some agent) ∧
    (∃ json chat, Json.read? chatText = some json ∧ Chat.ofJson? json = some chat ∧
      (∀ t ∈ chat.updatedAt, t.HasPlainYear) ∧ Chat.ofJson? chat.wire.canonical = some chat) ∧
    (∃ json message, Json.read? messageText = some json ∧
      Message.ofJson? .nullOrEmptyObject json = some message ∧
      Message.ofJson? .null message.wire.canonical = some message.settled ∧
      message.settled.wire = message.wire) ∧
    (∃ json saved, Json.read? savedText = some json ∧ SavedComponent.ofJson? json = some saved ∧
      (∀ t ∈ saved.createdAt, t.HasPlainYear) ∧
      SavedComponent.ofJson? saved.wire.canonical = some saved.settled ∧
      saved.settled.wire = saved.wire) := by
  obtain ⟨agents, chats, messages, savedComponents⟩ := @rereading_is_stable
  refine ⟨?_, ?_, ?_, ?_⟩
  · have whole : ((Json.read? agentText).bind Agent.ofJson?).any (·.extra.length == 2) := by
      decide +kernel
    obtain ⟨json, agent, text, read, -⟩ := exists_of_read whole
    exact ⟨json, agent, text, read, agents (Json.isCanonical_of_read? text) read⟩
  · have whole : ((Json.read? chatText).bind Chat.ofJson?).any
        (fun chat => decide (chat.updatedAt = some ⟨1740830400, 250000000⟩)) := by
      decide +kernel
    obtain ⟨json, chat, text, read, at'⟩ := exists_of_read whole
    have plain : ∀ t ∈ chat.updatedAt, t.HasPlainYear := by
      rw [of_decide_eq_true at']
      intro t mem
      cases mem
      decide
    exact ⟨json, chat, text, read, plain, chats read plain⟩
  · have whole : ((Json.read? messageText).bind (Message.ofJson? .nullOrEmptyObject)).any
        (·.content.forest.length == 1) := by
      decide +kernel
    obtain ⟨json, message, text, read, -⟩ := exists_of_read whole
    exact ⟨json, message, text, read,
      messages _ .null (Json.isCanonical_of_read? text) read⟩
  · have whole : ((Json.read? savedText).bind SavedComponent.ofJson?).any
        (fun saved => decide (saved.createdAt = some ⟨1719791999, 1250000000⟩)) := by
      decide +kernel
    obtain ⟨json, saved, text, read, at'⟩ := exists_of_read whole
    have plain : ∀ t ∈ saved.createdAt, t.HasPlainYear := by
      rw [of_decide_eq_true at']
      intro t mem
      cases mem
      decide
    exact ⟨json, saved, text, read, plain,
      savedComponents (Json.isCanonical_of_read? text) read plain⟩

end Liveboard
