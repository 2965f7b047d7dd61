/-
  Liveboard/Session/Board.lean
  ============================
  **The board: everything a client shows.**

  It changes by one inbound frame at a time (`apply`), by the user's own message, and by
  the expiry of an error text.  `apply` does nothing else: what has to happen outside of
  the board, such as sending, settling a save, arming a timer or painting, comes back as
  a list of effects, in order.
-/
import Liveboard.Wire.Action
import Liveboard.Wire.Frame

namespace Liveboard.Session

/-- What the two error texts that vanish by themselves are about. -/
inductive Topic where
  | save
  | combine
deriving DecidableEq, BEq, Repr

/-- Where a forest is drawn. -/
inductive Target where
  /-- The message at this position. -/
  | message (index : Nat)
  /-- The buffer that is rendered in place. -/
  | live
deriving DecidableEq, BEq, Repr

inductive Effect where
  | send (action : Action)
  | resolveSave (component : SavedComponent)
  | rejectSave (reason : String)
  | armExpiry (topic : Topic) (token : Nat)
  /-- The messages were replaced: what was drawn is stale. -/
  | reset
  | render (target : Target)
deriving BEq, Repr

/-! ### Error texts that expire -/

/-- An error text and the number of the last time one was set. -/
structure Notice where
  text : Option String
  token : Nat
deriving DecidableEq, BEq, Repr

namespace Notice

def empty : Notice := ⟨none, 0⟩

def set (notice : Notice) (text : String) : Notice := ⟨some text, notice.token + 1⟩

def clear (notice : Notice) : Notice := { notice with text := none }

/-- Only the timer armed for the text that is shown takes it away. -/
def expires (notice : Notice) (token : Nat) : Bool := notice.token == token && notice.text.isSome

end Notice

/-! ### The board -/

structure Board where
  agents : List Agent
  activity : Activity
  activityMessage : Option String
  chats : List Chat
  activeChat : Option String
  messages : List Message
  live : Forest
  library : Library
  isCombining : Bool
  combineError : Notice
  saveError : Notice
deriving BEq, Repr

namespace Board

def empty : Board :=
  ⟨[], .idle, none, [], none, [], [], [], false, .empty, .empty⟩

/-- The forest at a target, if there is one. -/
def forest? (board : Board) : Target → Option Forest
  | .live => some board.live
  | .message index => board.messages[index]?.bind fun message => message.content.forest?

/-- Record a message that the user just sent. -/
def pushUserMessage (board : Board) (text : String) : Board :=
  { board with messages := board.messages ++ [.ofUser text] }

def notice (board : Board) : Topic → Notice
  | .save => board.saveError
  | .combine => board.combineError

def setNotice (board : Board) : Topic → Notice → Board
  | .save, notice => { board with saveError := notice }
  | .combine, notice => { board with combineError := notice }

/-- Whether the expiry timer with this token still concerns the text that is shown. -/
def expires (board : Board) (topic : Topic) (token : Nat) : Bool :=
  (board.notice topic).expires token

/-- An expiry timer fired. -/
def expire (board : Board) (topic : Topic) (token : Nat) : Board :=
  if board.expires topic token then board.setNotice topic (board.notice topic).clear else board

theorem expire_of_not_expires {board : Board} {topic : Topic} {token : Nat}
    (h : board.expires topic token = false) : board.expire topic token = board := by
  simp [expire, h]

theorem text_notice_expire {board : Board} {topic : Topic} {token : Nat}
    (h : board.expires topic token) : ((board.expire topic token).notice topic).text = none := by
  cases topic <;> simp [expire, h, setNotice, notice, Notice.clear]

/-! ### Inbound frames -/

/-- The messages of the assistant that have something to draw. -/
def drawn (messages : List Message) : List Nat :=
  (messages.zipIdx.filter fun (message, _) =>
    message.speaker == .assistant && !message.content.forest.isEmpty).map (·.2)

/-- Apply one frame. -/
def apply (board : Board) : Frame → Board × List Effect
  | .systemConfig none => (board, [])
  | .systemConfig (some agents) => ({ board with agents := agents }, [])
  | .agentRegistered agent =>
    if board.agents.any fun known => known.id == agent.id then (board, [])
    else ({ board with agents := board.agents ++ [agent] }, [])
  | .agentList agents => ({ board with agents := agents }, [])
  | .chatStatus activity message =>
    ({ board with activity := activity, activityMessage := message }, [])
  | .render forest =>
    ({ board with messages := board.messages ++ [.ofAssistant forest] },
      [.render (.message board.messages.length)])
  | .update forest => ({ board with live := forest }, [.render .live])
  | .append forest => ({ board with live := board.live ++ forest }, [.render .live])
  | .historyList chats => ({ board with chats := chats }, [])
  | .chatCreated chatId =>
    ({ board with activeChat := some chatId, messages := [], live := [] },
      [.reset, .send .getHistory])
  | .chatLoaded chatId messages =>
    ({ board with activeChat := some chatId, messages := messages, live := [] },
      .reset :: (drawn messages).map fun index => .render (.message index))
  | .savedList library => ({ board with library := library }, [])
  | .saved component =>
    ({ board with library := board.library.put component, saveError := board.saveError.clear },
      [.resolveSave component])
  | .deleted componentId => ({ board with library := board.library.remove componentId }, [])
  | .saveError reason =>
    let notice := board.saveError.set reason
    ({ board with saveError := notice }, [.armExpiry .save notice.token, .rejectSave reason])
  | .combineStatus _ =>
    ({ board with isCombining := true, combineError := board.combineError.clear }, [])
  | .combined removed added
  | .condensed removed added =>
    ({ board with isCombining := false, library := board.library.replace removed added }, [])
  | .combineError reason =>
    let notice := board.combineError.set reason
    ({ board with isCombining := false, combineError := notice }, [.armExpiry .combine notice.token])
  | .unknown _ => (board, [])

end Board
end Liveboard.Session
