/-
  Liveboard/Session/Snapshot.lean
  ===============================
  **A board as a JSON value**, for watchers outside of the program.

  It shows what a user can see: the numbers of the error texts are left out.
-/
import Liveboard.Session.Board

namespace Liveboard.Session.Board

def textOrNull : Option String → Json := Json.ofOption .str

def snapshot (board : Board) : Json :=
  .obj [
    ("agents", .arr (board.agents.map Agent.wire)),
    ("status", .str board.activity.name),
    ("status_message", textOrNull board.activityMessage),
    ("chats", .arr (board.chats.map Chat.wire)),
    ("active", textOrNull board.activeChat),
    ("messages", .arr (board.messages.map Message.wire)),
    ("live", .arr (Component.wireAll board.live)),
    ("saved", .arr (board.library.map SavedComponent.wire)),
    ("combining", .bool board.isCombining),
    ("combine_error", textOrNull board.combineError.text),
    ("save_error", textOrNull board.saveError.text)]

end Liveboard.Session.Board
