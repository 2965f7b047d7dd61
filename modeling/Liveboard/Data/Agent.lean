/-
  Liveboard/Data/Agent.lean
  =========================
  **Agents of the orchestration service.**

  Besides its id an agent may have a name and a description; whatever else the
  server says about it is kept as it came.
-/
import Liveboard.Json.Decode

namespace Liveboard

structure Agent where
  id : String
  name : Option String
  description : Option String
  extra : List (String × Json)
deriving BEq, Repr

namespace Agent

def ownKeys : List String := ["id", "name", "description"]

/-- An agent is read from an object only. -/
def ofJson? : Json → Option Agent
  | .obj fields => do
    let id ← Fields.required? fields "id" Json.asString?
    let name ← Fields.optional? fields "name" Json.asString?
    let description ← Fields.optional? fields "description" Json.asString?
    some ⟨id, name, description, fields.filter fun field => !ownKeys.contains field.1⟩
  | _ => none

/-- What is absent is left out. -/
def wire (agent : Agent) : Json :=
  .obj (("id", .str agent.id) ::
    (agent.name.toList.map fun name => ("name", Json.str name)) ++
    (agent.description.toList.map fun text => ("description", Json.str text)) ++ agent.extra)

end Agent
end Liveboard
