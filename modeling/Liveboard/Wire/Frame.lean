/-
  Liveboard/Wire/Frame.lean
  =========================
  **Frames from the server to the client.**

  A frame is a JSON object told apart by its string field `type`.  A frame of a type
  this client does not know is no error: it reads as `unknown`.  A frame of a known
  type whose body does not fit is one.
-/
import Liveboard.Data.Agent
import Liveboard.Data.Chat
import Liveboard.Data.Library
import Liveboard.Json.Reader

namespace Liveboard

inductive Frame where
  /-- Replaces the roster if it brings one. -/
  | systemConfig (agents : Option (List Agent))
  | agentRegistered (agent : Agent)
  | agentList (agents : List Agent)
  | chatStatus (activity : Activity) (message : Option String)
  /-- A new message of the assistant. -/
  | render (forest : Forest)
  /-- Replaces the live buffer. -/
  | update (forest : Forest)
  /-- Extends the live buffer. -/
  | append (forest : Forest)
  | historyList (chats : List Chat)
  | chatCreated (chatId : String)
  | chatLoaded (chatId : String) (messages : List Message)
  | savedList (library : List SavedComponent)
  | saved (component : SavedComponent)
  | deleted (componentId : String)
  | saveError (reason : String)
  | combineStatus (message : Option String)
  | combined (removed : List String) (added : List SavedComponent)
  | condensed (removed : List String) (added : List SavedComponent)
  | combineError (reason : String)
  | unknown (typeName : String)
deriving BEq, Repr

/-- Why a text is not the JSON that was asked for. -/
inductive Json.Fault where
  /-- It is not JSON. -/
  | parse
  /-- It is JSON of another shape. -/
  | data
deriving DecidableEq, Repr

/-- Why a text is no frame. -/
inductive FrameError where
  | json (fault : Json.Fault)
  | missingType
deriving DecidableEq, Repr

def FrameError.message : FrameError → String
  | .json .parse => "malformed frame: not valid JSON"
  | .json .data => "malformed frame: unexpected body"
  | .missingType => "frame has no string `type` field"

namespace Frame

def typeName : Frame → String
  | systemConfig _ => "system_config"
  | agentRegistered _ => "agent_registered"
  | agentList _ => "agent_list"
  | chatStatus _ _ => "chat_status"
  | render _ => "ui_render"
  | update _ => "ui_update"
  | append _ => "ui_append"
  | historyList _ => "history_list"
  | chatCreated _ => "chat_created"
  | chatLoaded _ _ => "chat_loaded"
  | savedList _ => "saved_components_list"
  | saved _ => "component_saved"
  | deleted _ => "component_deleted"
  | saveError _ => "component_save_error"
  | combineStatus _ => "combine_status"
  | combined _ _ => "components_combined"
  | condensed _ _ => "components_condensed"
  | combineError _ => "combine_error"
  | unknown name => name

/-- The types of frames this client knows. -/
def knownTypes : List String :=
  ["system_config", "agent_registered", "agent_list", "chat_status", "ui_render", "ui_update",
   "ui_append", "history_list", "chat_created", "chat_loaded", "saved_components_list",
   "component_saved", "component_deleted", "component_save_error", "combine_status",
   "components_combined", "components_condensed", "combine_error"]

/-! ### Bodies -/

/-- The fields of the bodies, beside the type. -/
def shapeOf : String → Shape
  | "system_config" => [.plain "agents"]
  | "agent_registered" => [.plain "agent"]
  | "agent_list" => [.plain "agents"]
  | "chat_status" => [.plain "status", .plain "message"]
  | "ui_render" => [.plain "components"]
  | "ui_update" => [.plain "components"]
  | "ui_append" => [.plain "components"]
  | "history_list" => [.plain "chats"]
  | "chat_created" => [.spelled "chat_id" "chatId"]
  | "chat_loaded" => [.spelled "chat_id" "chatId", .plain "messages"]
  | "saved_components_list" => [.plain "components"]
  | "component_saved" => [.plain "component"]
  | "component_deleted" => [.spelled "component_id" "componentId"]
  | "component_save_error" => [.plain "error"]
  | "combine_status" => [.plain "message"]
  | "components_combined" =>
    [.spelled "removed_ids" "removedIds", .spelled "new_components" "newComponents"]
  | "components_condensed" =>
    [.spelled "removed_ids" "removedIds", .spelled "new_components" "newComponents"]
  | "combine_error" => [.plain "error"]
  | _ => []

/-- Inside a frame a tag may carry null or an empty object. -/
def empties : Json.Empties := .nullOrEmptyObject

def forestIn (record : Fields) : Option Forest :=
  record.defaulted? "components" [] (some ∘ Forest.ofJson)

def replacementIn (record : Fields) : Option (List String × List SavedComponent) := do
  let removed ← record.defaulted? "removed_ids" [] (Json.asList? Json.asString?)
  let added ← record.defaulted? "new_components" [] (Json.asList? SavedComponent.ofJson?)
  some (removed, added)

/-- The frame of a known type whose fields are given under their names. -/
def ofRecord? (typeName : String) (record : Fields) : Option Frame :=
  match typeName with
  | "system_config" =>
    systemConfig <$> record.optional? "agents" (Json.asList? Agent.ofJson?)
  | "agent_registered" => agentRegistered <$> record.required? "agent" Agent.ofJson?
  | "agent_list" => agentList <$> record.defaulted? "agents" [] (Json.asList? Agent.ofJson?)
  | "chat_status" => do
    let activity ← record.required? "status" (Activity.ofJson? empties)
    let message ← record.optional? "message" Json.asString?
    some (chatStatus activity message)
  | "ui_render" => render <$> forestIn record
  | "ui_update" => update <$> forestIn record
  | "ui_append" => append <$> forestIn record
  | "history_list" => historyList <$> record.defaulted? "chats" [] (Json.asList? Chat.ofJson?)
  | "chat_created" => chatCreated <$> record.required? "chat_id" Json.asString?
  | "chat_loaded" => do
    let chatId ← record.required? "chat_id" Json.asString?
    let messages ← record.defaulted? "messages" [] (Json.asList? (Message.ofJson? empties))
    some (chatLoaded chatId messages)
  | "saved_components_list" =>
    savedList <$> record.defaulted? "components" [] (Json.asList? SavedComponent.ofJson?)
  | "component_saved" => saved <$> record.required? "component" SavedComponent.ofJson?
  | "component_deleted" => deleted <$> record.required? "component_id" Json.asString?
  | "component_save_error" => saveError <$> record.defaulted? "error" "" Json.asString?
  | "combine_status" => combineStatus <$> record.optional? "message" Json.asString?
  | "components_combined" => (fun (removed, added) => combined removed added) <$> replacementIn record
  | "components_condensed" =>
    (fun (removed, added) => condensed removed added) <$> replacementIn record
  | "combine_error" => combineError <$> record.defaulted? "error" "" Json.asString?
  | _ => none

/-- The frame of a known type with the given fields. -/
def ofFields? (typeName : String) (fields : Fields) : Option Frame :=
  ((shapeOf typeName).ofFields? fields).bind (ofRecord? typeName)

/-! ### Reading -/

def ofJson (json : Json) : Except FrameError Frame :=
  match json with
  | .obj fields =>
    match Fields.get? fields "type" with
    | some (.str name) =>
      if knownTypes.contains name then
        match ofFields? name fields with
        | some frame => .ok frame
        | none => .error (.json .data)
      else .ok (.unknown name)
    | _ => .error .missingType
  | _ => .error .missingType

/-- The frame a text denotes. -/
def parse (text : String) : Except FrameError Frame :=
  match Json.read? text with
  | none => .error (.json .parse)
  | some json => ofJson json

/-! ### Reading with checks

Chats and stored components have timestamps, over which a checked build may panic.  Sessions
go by `parse`, which is what an unchecked build reads (`Frame.read_unchecked`). -/

/-- How the decoding of a field of a frame ends, if it holds a timestamp or comes before one. -/
def judge (build : Build) (typeName name : String) (json : Json) : Verdict :=
  match typeName, name with
  | "history_list", "chats" => .ofList (Chat.verdict build) json
  | "saved_components_list", "components" => .ofList (SavedComponent.verdict build) json
  | "component_saved", "component" => SavedComponent.verdict build json
  | _, "removed_ids" => .ofOption (Json.asList? Json.asString? json)
  | _, "new_components" => .ofList (SavedComponent.verdict build) json
  | _, _ => .accepted

def verdict (build : Build) : Json → Verdict
  | .obj fields =>
    match Fields.get? fields "type" with
    | some (.str name) => (shapeOf name).verdict (judge build name) (.obj fields)
    | _ => .accepted
  | _ => .accepted

/-- The frame a text denotes, unless the build panics over a timestamp in it. -/
def read (build : Build) (text : String) : Computed (Except FrameError Frame) :=
  match (Json.read? text).map (verdict build) with
  | some .panic => .panic
  | _ => .value (parse text)

end Frame
end Liveboard
