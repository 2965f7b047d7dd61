/-
  Liveboard/Wire/Action.lean
  ==========================
  **What a client asks of the server.**

  An action has a name and a payload.  Where it concerns a chat and names none, it is
  about the active one: `scopedTo` fills that in before the action is sent.
-/
import Liveboard.Component.Basic

namespace Liveboard

inductive Action where
  | chatMessage (content : String) (chatId : Option String)
  | loadChat (chatId : String)
  | newChat
  | getSaved (chatId : Option String)
  | save (chatId : Option String) (component : Component) (kindName : String)
      (title : Option String)
  | deleteSaved (componentId : String)
  | combine (chatId : Option String) (componentIds : List String)
  | condense (chatId : Option String)
  | discoverAgents
  | getHistory
deriving BEq, Repr

namespace Action

def name : Action → String
  | chatMessage _ _ => "chat_message"
  | loadChat _ => "load_chat"
  | newChat => "new_chat"
  | getSaved _ => "get_saved_components"
  | save _ _ _ _ => "save_component"
  | deleteSaved _ => "delete_saved_component"
  | combine _ _ => "combine_components"
  | condense _ => "condense_components"
  | discoverAgents => "discover_agents"
  | getHistory => "get_history"

/-- Fill an unset chat with the active one. -/
def scopedTo (active : Option String) : Action → Action
  | chatMessage content chatId => chatMessage content (chatId <|> active)
  | getSaved chatId => getSaved (chatId <|> active)
  | save chatId component kindName title => save (chatId <|> active) component kindName title
  | combine chatId componentIds => combine (chatId <|> active) componentIds
  | condense chatId => condense (chatId <|> active)
  | action => action

/-- A chat that is named stays. -/
theorem scopedTo_scopedTo (action : Action) (first second : Option String) :
    (action.scopedTo first).scopedTo second = action.scopedTo (first <|> second) := by
  cases action <;> simp [scopedTo, Option.or_assoc]

@[simp] theorem name_scopedTo (action : Action) (active : Option String) :
    (action.scopedTo active).name = action.name := by
  cases action <;> rfl

def textOrNull : Option String → Json := Json.ofOption .str

/-- Keys in increasing order. -/
def payload : Action → Json
  | chatMessage content chatId => .obj [("chat_id", textOrNull chatId), ("content", .str content)]
  | loadChat chatId => .obj [("chat_id", .str chatId)]
  | newChat => .obj []
  | getSaved chatId => .obj [("chat_id", textOrNull chatId)]
  | save chatId component kindName title =>
    .obj [("chat_id", textOrNull chatId), ("component_data", component.toJson),
      ("component_type", .str kindName), ("title", textOrNull title)]
  | deleteSaved componentId => .obj [("component_id", .str componentId)]
  | combine chatId componentIds =>
    .obj [("chat_id", textOrNull chatId), ("component_ids", .arr (componentIds.map .str))]
  | condense chatId => .obj [("chat_id", textOrNull chatId)]
  | discoverAgents => .obj []
  | getHistory => .obj []

end Action
end Liveboard
