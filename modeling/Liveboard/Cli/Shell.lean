/-
  Liveboard/Cli/Shell.lean
  ========================
  **What the command line does with a line of input and what it reports.**

  A line is answered from the board as it was last published: some output at once, and
  something for the session to do.  Reports tell of connectivity, activity and errors as
  they change.
-/
import Liveboard.Cli.Input
import Liveboard.Component.Outline
import Liveboard.Component.Forest
import Liveboard.Session.Board
import Liveboard.Session.Failure

namespace Liveboard.Cli

open Session

/-! ### Input -/

/-- What the session is to do for a line of input. -/
inductive Demand where
  | nothing
  | chat (text : String)
  | send (action : Action)
  /-- Save what can be saved of a forest, in the background. -/
  | saveAll (forest : Forest)

/-- A line of input that cannot be answered. -/
inductive Refusal where
  | noComponents (index : Nat)
deriving DecidableEq, Repr

def Refusal.message : Refusal → String
  | .noComponents index => "message " ++ Nat.repr index ++ " has no components"

/-- The lines to print and what to do next. -/
def respond (board : Board) : Input → Except Refusal (List String × Demand)
  | .chat text => .ok ([], .chat text)
  | .new => .ok ([], .send .newChat)
  | .load chatId => .ok ([], .send (.loadChat chatId))
  | .history => .ok (board.chats.map fun chat => chat.id ++ "  " ++ chat.title, .send .getHistory)
  | .saved =>
    .ok (board.library.map fun saved => saved.id ++ "  [" ++ saved.kindName ++ "] " ++ saved.title,
      .send (.getSaved none))
  | .save index =>
    match board.forest? (.message index) with
    | some forest => .ok ([], .saveAll forest)
    | none => .error (.noComponents index)
  | .delete componentId => .ok ([], .send (.deleteSaved componentId))
  | .combine componentIds => .ok ([], .send (.combine none componentIds))
  | .condense => .ok ([], .send (.condense none))
  | .agents =>
    .ok (board.agents.map fun agent => agent.id ++ "  " ++ agent.name.getD "", .send .discoverAgents)
  | .quit | .empty | .invalid _ => .ok ([], .nothing)

/-- Printed where errors go when a message could not be sent. -/
def notSentLine : String := "not connected; message not sent"

/-- What a background save ends with: a line of output or a line of error. -/
def saveOutcome : Except Failure (List SavedComponent) → String ⊕ String
  | .ok saved => .inl ("saved " ++ Nat.repr saved.length ++ " component(s)")
  | .error failure => .inr ("save failed: " ++ failure.message)

/-! ### Reports -/

def connectivityLine (isOnline : Bool) : String :=
  if isOnline then "* connected" else "* disconnected"

def activityWord : Activity → String
  | .idle => "Idle"
  | .thinking => "Thinking"
  | .executing => "Executing"
  | .done => "Done"
  | .unknown => "Unknown"

def activityLine (activity : Activity) : String :=
  "* status: " ++ activityWord activity ++ (if activity.isBusy then " (working)" else "")

/-- An error text that was not shown before. -/
def errorLine (before now : Notice) : List String :=
  match now.text with
  | some text => if before.text == some text then [] else ["* error: " ++ text]
  | none => []

/-- What is worth reporting of a change of the board. -/
def changeLines (before now : Board) : List String :=
  (if now.activity == before.activity then [] else [activityLine now.activity]) ++
    errorLine before.saveError now.saveError ++ errorLine before.combineError now.combineError ++
    (if now.isCombining && !before.isCombining then ["* combining..."] else [])

/-! ### Drawing -/

/-- The line above a drawn forest. -/
def headline (target : Target) (forest : Forest) : String :=
  let nodes := " (" ++ Nat.repr forest.count ++ " nodes)"
  match target with
  | .message index => "[message " ++ Nat.repr index ++ "]" ++ nodes
  | .live => "[live]" ++ nodes

def drawing (target : Target) (forest : Forest) : String :=
  headline target forest ++ "\n" ++ forest.outline

/-- Drawn when the messages were replaced. -/
def switchLine : String := "--- chat switched ---"

end Liveboard.Cli
