/-
  Liveboard/Session/Connection.lean
  =================================
  **The single transport to the orchestration service.**

  Each attempt to connect has a generation of its own, and news from any other
  generation is stale.  Once the link opens the client registers under a fresh session
  id, asks for the history, and arms the resumption of the chat that was active.  When
  the link ends, however it does, a reconnect is armed after a fixed delay, for ever;
  only a manual disconnect stops that.
-/
import Liveboard.Session.Order

namespace Liveboard.Session

/-- What a client needs to know; durations in milliseconds. -/
structure Settings where
  url : String
  capabilities : List String
  reconnectDelay : Nat
  resumeDelay : Nat
  saveTimeout : Nat
  errorTtl : Nat
deriving DecidableEq, Repr

inductive Phase where
  /-- Not connected; a reconnect may be armed. -/
  | disconnected
  | connecting
  | connected
  /-- Manually disconnected: nothing reconnects by itself. -/
  | closed
deriving DecidableEq, BEq, Repr

def Phase.name : Phase → String
  | .disconnected => "disconnected"
  | .connecting => "connecting"
  | .connected => "open"
  | .closed => "closed"

structure Connection where
  settings : Settings
  phase : Phase
  generation : Nat
  /-- The credential of the current attempt. -/
  token : Option String
  sessionId : Option String
  /-- The queue for frames to the server. -/
  outbound : Option Nat
  /-- The generation of the link that can be cancelled. -/
  link : Option Nat
  /-- What watchers were last told. -/
  isOnline : Bool
deriving Repr

namespace Connection

def start (settings : Settings) : Connection :=
  ⟨settings, .disconnected, 0, none, none, none, none, false⟩

def isOpen (connection : Connection) : Bool := connection.phase == .connected

/-- Connecting or open: the current link may have news. -/
def isLive (connection : Connection) : Bool :=
  connection.phase == .connecting || connection.phase == .connected

/-! ### Sending -/

/-- Queue an envelope, if there is a queue. -/
def offer (connection : Connection) (envelope : Envelope) : List Order :=
  connection.outbound.toList.map fun channel => .offer channel envelope

/-- Send an action over the open link; otherwise it is dropped. -/
def send (connection : Connection) (action : Action) : List Order :=
  if connection.isOpen then connection.offer (.ofAction action connection.sessionId) else []

/-! ### Connecting -/

/-- Start an attempt.  Without a credential, or while there is a link, nothing happens. -/
def connect (connection : Connection) (credential : Option String) : Connection × List Order :=
  match credential with
  | none => (connection, [])
  | some token =>
    if connection.isLive then (connection, [])
    else
      let generation := connection.generation + 1
      ({ connection with
          phase := .connecting
          generation := generation
          token := some token
          link := some generation },
        [.attempt generation connection.settings.url])

/-! ### News from links -/

/-- Let go of the link. -/
def dropLink (connection : Connection) : Connection × List Order :=
  ({ connection with outbound := none, sessionId := none, link := none },
    connection.outbound.toList.map .release ++ connection.link.toList.map .cut)

/-- The link opened: register, ask for the history, arm the resumption. -/
def onOpen (connection : Connection) (channel : Nat) (sessionId : String)
    (activeChat : Option String) : Connection × List Order :=
  let opened := { connection with
    phase := .connected, outbound := some channel, sessionId := some sessionId, isOnline := true }
  (opened,
    connection.outbound.toList.map .release ++ [.announce true] ++
      opened.offer (.registration sessionId (opened.token.getD "") opened.settings.capabilities) ++
      opened.send .getHistory ++
      activeChat.toList.map fun chatId =>
        .arm opened.settings.resumeDelay (.resume opened.generation chatId))

/-- The link ended: arm a reconnect. -/
def onClose (connection : Connection) : Connection × List Order :=
  let (dropped, orders) := connection.dropLink
  ({ dropped with phase := .disconnected, isOnline := false },
    orders ++ [.announce false, .arm connection.settings.reconnectDelay .reconnect])

/-- Take news from a link.  `sessionId` is the id to register under if this opens the
    link.  The last component is the text of a frame to dispatch. -/
def handle (connection : Connection) (generation : Nat) (news : LinkNews) (sessionId : String)
    (activeChat : Option String) : Connection × List Order × Option String :=
  if generation == connection.generation && connection.isLive then
    match news with
    | .opened channel =>
      let (connection, orders) := connection.onOpen channel sessionId activeChat
      (connection, orders, none)
    | .reported (.frame text) => (connection, [], some text)
    | .reported _ =>
      let (connection, orders) := connection.onClose
      (connection, orders, none)
  else
    match news with
    | .opened channel => (connection, [.release channel], none)
    | .reported _ => (connection, [], none)

/-! ### Timers and commands -/

/-- The resumption is due.  It is sent only while the same link is open. -/
def resume (connection : Connection) (generation : Nat) (chatId : String) : List Order :=
  if generation == connection.generation then connection.send (.loadChat chatId) else []

/-- Tear down the link and every scoped timer, and stay down. -/
def disconnect (connection : Connection) : Connection × List Order :=
  let (dropped, orders) := connection.dropLink
  ({ dropped with phase := .closed, isOnline := false },
    .endScope :: orders ++ [.announce false])

end Connection
end Liveboard.Session
