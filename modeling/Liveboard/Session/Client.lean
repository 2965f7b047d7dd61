/-
  Liveboard/Session/Client.lean
  =============================
  **The session loop as a machine.**

  The loop owns the connection, the board and the save requests that wait for their
  confirmation.  It takes one command or event at a time; each handler returns the next
  state and the orders to carry out, in order.  The credential is consulted when an
  attempt to connect starts.
-/
import Liveboard.Session.Connection

namespace Liveboard.Session

structure Client where
  connection : Connection
  board : Board
  saves : Confirmations Ticket

namespace Client

def start (settings : Settings) : Client :=
  ⟨.start settings, .empty, .empty settings.saveTimeout⟩

/-- Send an action, scoped to the active chat. -/
def send (client : Client) (action : Action) : List Order :=
  client.connection.send (action.scopedTo client.board.activeChat)

def settlements (settled : List (Settlement Ticket SavedComponent)) : List Order :=
  settled.map fun settlement => .settle settlement.reply settlement.result

/-! ### Effects of a frame -/

/-- Carry out one effect of a frame that the board has taken in. -/
def perform (client : Client) : Effect → Client × List Order
  | .send action => (client, client.send action)
  | .resolveSave component =>
    let (saves, settled) := client.saves.resolve component
    ({ client with saves := saves }, settlements settled)
  | .rejectSave reason =>
    let (saves, settled) := client.saves.reject (.rejected reason)
    ({ client with saves := saves }, settlements settled)
  | .armExpiry topic token =>
    (client, [.armDetached client.connection.settings.errorTtl (.errorExpiry topic token)])
  | .reset => (client, [.reset])
  | .render target => (client, (client.board.forest? target).toList.map (.render target))

def performAll (client : Client) : List Effect → Client × List Order
  | [] => (client, [])
  | effect :: effects =>
    let (client, orders) := client.perform effect
    let (client, later) := performAll client effects
    (client, orders ++ later)

theorem performAll_append (client : Client) (effects later : List Effect) :
    client.performAll (effects ++ later) =
      (((client.performAll effects).1.performAll later).1,
        (client.performAll effects).2 ++ ((client.performAll effects).1.performAll later).2) := by
  induction effects generalizing client with
  | nil => rfl
  | cons effect effects ih => simp [performAll, ih]

/-- Take in the text of one frame, read as a build without checks reads it.  Text that is no
    frame is dropped. -/
def dispatch (client : Client) (text : String) : Client × List Order :=
  match Frame.parse text with
  | .error _ => (client, [])
  | .ok frame =>
    let (board, effects) := client.board.apply frame
    let (client, orders) := performAll { client with board := board } effects
    (client, orders ++ [.publish client.board])

/-! ### Commands -/

def connect (client : Client) (credential : Option String) : Client × List Order :=
  let (connection, orders) := client.connection.connect credential
  ({ client with connection := connection }, orders)

/-- Tear down the connection; every open request fails for this reason. -/
def hangUp (client : Client) (failure : Failure) : Client × List Order :=
  let (connection, orders) := client.connection.disconnect
  let (saves, settled) := client.saves.rejectAll failure
  ({ client with connection := connection, saves := saves }, orders ++ settlements settled)

/-- Record and send a message of the user, while online. -/
def chat (client : Client) (content : String) (ticket : Ticket) : Client × List Order :=
  if client.connection.isOpen then
    let client := { client with board := client.board.pushUserMessage content }
    (client,
      client.send (.chatMessage content none) ++ [.publish client.board, .answer ticket true])
  else (client, [.answer ticket false])

/-- Send a save and wait for its confirmation, while online. -/
def save (client : Client) (action : Action) (ticket : Ticket) : Client × List Order :=
  if client.connection.isOpen then
    let (saves, request) := client.saves.register ticket
    ({ client with saves := saves },
      .arm client.saves.timeout (.saveDeadline request) :: client.send action)
  else (client, [.settle ticket (.error .disconnected)])

/-- Handle a command.  A shutdown is no command for the loop's state: it ends the loop. -/
def onCommand (client : Client) (credential : Option String) : Command → Client × List Order
  | .connect => client.connect credential
  | .disconnect => client.hangUp .disconnected
  | .shutdown => (client, [])
  | .send action => (client, client.send action)
  | .chat content ticket => client.chat content ticket
  | .save action ticket => client.save action ticket

/-! ### Events -/

def onNews (client : Client) (generation : Nat) (news : LinkNews) (sessionId : String) :
    Client × List Order :=
  let (connection, orders, frame?) :=
    client.connection.handle generation news sessionId client.board.activeChat
  let client := { client with connection := connection }
  match frame? with
  | none => (client, orders)
  | some text =>
    let (client, later) := client.dispatch text
    (client, orders ++ later)

def onWake (client : Client) (credential : Option String) : Wake → Client × List Order
  | .reconnect => client.connect credential
  | .resume generation chatId => (client, client.connection.resume generation chatId)
  | .saveDeadline request =>
    let (saves, settled) := client.saves.expire request
    ({ client with saves := saves }, settlements settled)
  | .errorExpiry topic token =>
    if client.board.expires topic token then
      let client := { client with board := client.board.expire topic token }
      (client, [.publish client.board])
    else (client, [])

/-- Handle an event.  `sessionId` is the id to register under if it opens a link. -/
def onEvent (client : Client) (credential : Option String) (sessionId : String) :
    Event → Client × List Order
  | .link generation news => client.onNews generation news sessionId
  | .wake wake => client.onWake credential wake

/-- The loop ends. -/
def stop (client : Client) : Client × List Order := client.hangUp .clientClosed

end Client
end Liveboard.Session
