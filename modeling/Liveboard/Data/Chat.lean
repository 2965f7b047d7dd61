/-
  Liveboard/Data/Chat.lean
  ========================
  **Chats and their messages.**

  The server lists chats, reports what the active one is doing and sends its
  messages.  What a message says is a text or a forest of components.
-/
import Liveboard.Component.Forest
import Liveboard.Json.Decode
import Liveboard.Json.Verdict
import Liveboard.Json.Writer
import Liveboard.Time.Reading

namespace Liveboard

/-! ### Activity -/

/-- What the active chat is doing. -/
inductive Activity where
  | idle
  | thinking
  | executing
  | done
  | unknown
deriving DecidableEq, BEq, Repr

namespace Activity

def name : Activity → String
  | idle => "idle"
  | thinking => "thinking"
  | executing => "executing"
  | done => "done"
  | unknown => "unknown"

/-- Names that are not known read as `unknown`. -/
def ofName : String → Activity
  | "idle" => idle
  | "thinking" => thinking
  | "executing" => executing
  | "done" => done
  | _ => unknown

@[simp] theorem ofName_name (activity : Activity) : ofName activity.name = activity := by
  cases activity <;> rfl

def isBusy : Activity → Bool
  | thinking | executing => true
  | _ => false

def ofJson? (empties : Json.Empties) (json : Json) : Option Activity :=
  (json.asTag? empties).map ofName

end Activity

/-! ### Chats -/

/-- A chat as the server lists it. -/
structure Chat where
  id : String
  title : String
  updatedAt : Option Time.Instant
  hasSavedComponents : Bool
deriving BEq, Repr

namespace Chat

def shape : Shape :=
  [.plain "id", .plain "title", .spelled "updated_at" "updatedAt",
   .spelled "has_saved_components" "hasSavedComponents"]

def ofJson? (json : Json) : Option Chat := do
  let record ← shape.record? json
  let id ← record.required? "id" Json.asString?
  let title ← record.nullable? "title" "" Json.asString?
  let updatedAt ← record.defaulted? "updated_at" none (some ∘ Time.Instant.ofJson?)
  let hasSaved ← record.nullable? "has_saved_components" false Json.asBool?
  some ⟨id, title, updatedAt, hasSaved⟩

/-- How the decoding of the field with this name ends. -/
def judge (build : Build) (name : String) (json : Json) : Verdict :=
  match name with
  | "id" => .ofOption json.asString?
  | "title" => .ofNullable Json.asString? json
  | "updated_at" => .ofComputed (Time.Instant.read build json)
  | "has_saved_components" => .ofNullable Json.asBool? json
  | _ => .accepted

def verdict (build : Build) (json : Json) : Verdict :=
  (shape.verdict (judge build) json).andThen (.ofOption (ofJson? json))

/-- The chat a value denotes, unless the build panics over its timestamp. -/
def read (build : Build) (json : Json) : Computed (Option Chat) :=
  (verdict build json).conclude (ofJson? json)

def wire (chat : Chat) : Json :=
  .obj [("id", .str chat.id), ("title", .str chat.title),
    ("updated_at", Json.ofOption Time.Instant.toJson chat.updatedAt),
    ("has_saved_components", .bool chat.hasSavedComponents)]

end Chat

/-! ### Messages -/

inductive Speaker where
  | user
  | assistant
  | system
  | unknown
deriving DecidableEq, BEq, Repr

namespace Speaker

def name : Speaker → String
  | user => "user"
  | assistant => "assistant"
  | system => "system"
  | unknown => "unknown"

/-- Names that are not known read as `unknown`. -/
def ofName : String → Speaker
  | "user" => user
  | "assistant" => assistant
  | "system" => system
  | _ => unknown

@[simp] theorem ofName_name (speaker : Speaker) : ofName speaker.name = speaker := by
  cases speaker <;> rfl

def ofJson? (empties : Json.Empties) (json : Json) : Option Speaker :=
  (json.asTag? empties).map ofName

end Speaker

inductive Content where
  | text (text : String)
  | components (forest : Forest)
deriving BEq, Repr

namespace Content

/-- A list or an object is a forest; everything else is text, a number or a Boolean
    as JSON writes it and null as the empty text. -/
def ofJson : Json → Content
  | .str s => .text s
  | .null => .text ""
  | .arr items => .components (Forest.ofJson (.arr items))
  | .obj fields => .components (Forest.ofJson (.obj fields))
  | json => .text json.compact

def asText? : Content → Option String
  | .text s => some s
  | .components _ => none

def forest : Content → Forest
  | .text _ => []
  | .components forest => forest

/-- The forest, told apart from a text that has none. -/
def forest? : Content → Option Forest
  | .text _ => none
  | .components forest => some forest

def wire : Content → Json
  | .text s => .str s
  | .components forest => .arr (Component.wireAll forest)

end Content

structure Message where
  speaker : Speaker
  content : Content
deriving BEq, Repr

namespace Message

def ofUser (text : String) : Message := ⟨.user, .text text⟩
def ofAssistant (forest : Forest) : Message := ⟨.assistant, .components forest⟩

def shape : Shape := [.plain "role", .plain "content"]

def ofJson? (empties : Json.Empties) (json : Json) : Option Message := do
  let record ← shape.record? json
  let speaker ← record.required? "role" (Speaker.ofJson? empties)
  let content ← record.defaulted? "content" (.text "") (some ∘ Content.ofJson)
  some ⟨speaker, content⟩

def wire (message : Message) : Json :=
  .obj [("role", .str message.speaker.name), ("content", message.content.wire)]

end Message
end Liveboard
