/-
  Liveboard/Wire/Envelope.lean
  ============================
  **Frames from the client to the server.**

  All share one envelope: a registration once per connection, which alone carries the
  credential, then one event per action.
-/
import Liveboard.Wire.Action
import Liveboard.Json.Decode
import Liveboard.Json.Writer

namespace Liveboard

inductive EnvelopeKind where
  | event
  | register
deriving DecidableEq, BEq, Repr

def EnvelopeKind.name : EnvelopeKind → String
  | .event => "ui_event"
  | .register => "register_ui"

def EnvelopeKind.ofName? : String → Option EnvelopeKind
  | "ui_event" => some .event
  | "register_ui" => some .register
  | _ => none

@[simp] theorem EnvelopeKind.ofName?_name (kind : EnvelopeKind) :
    EnvelopeKind.ofName? kind.name = some kind := by
  cases kind <;> rfl

structure Envelope where
  kind : EnvelopeKind
  action : Option String
  sessionId : Option String
  payload : Json
  token : Option String
  capabilities : Option (List String)
deriving BEq, Repr

namespace Envelope

def registration (sessionId token : String) (capabilities : List String) : Envelope :=
  ⟨.register, none, some sessionId, .obj [], some token, some capabilities⟩

def ofAction (action : Action) (sessionId : Option String) : Envelope :=
  ⟨.event, some action.name, sessionId, action.payload, none, none⟩

/-! ### Writing -/

/-- A field that is left out when absent. -/
def present {α : Type} (key : String) (encode : α → Json) : Option α → List (String × Json)
  | some a => [(key, encode a)]
  | none => []

def strings (items : List String) : Json := .arr (items.map .str)

def wire (envelope : Envelope) : Json :=
  .obj ([("type", Json.str envelope.kind.name)] ++
    present "action" .str envelope.action ++
    present "session_id" .str envelope.sessionId ++
    [("payload", envelope.payload)] ++
    present "token" .str envelope.token ++
    present "capabilities" strings envelope.capabilities)

def text (envelope : Envelope) : String := envelope.wire.compact

/-! ### Reading -/

def shape : Shape :=
  [.plain "type", .plain "action", .plain "session_id", .plain "payload", .plain "token",
   .plain "capabilities"]

def ofJson? (json : Json) : Option Envelope := do
  let record ← shape.record? json
  let kind ← record.required? "type" fun tag => (tag.asTag? .null).bind EnvelopeKind.ofName?
  let action ← record.optional? "action" Json.asString?
  let sessionId ← record.optional? "session_id" Json.asString?
  let payload ← record.defaulted? "payload" .null some
  let token ← record.optional? "token" Json.asString?
  let capabilities ← record.optional? "capabilities" (Json.asList? Json.asString?)
  some ⟨kind, action, sessionId, payload, token, capabilities⟩

end Envelope
end Liveboard
