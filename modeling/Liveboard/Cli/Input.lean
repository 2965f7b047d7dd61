/-
  Liveboard/Cli/Input.lean
  ========================
  **Lines that the user types.**

  A line that starts with a slash is a command: its name and its arguments, separated by
  white space.  Any other line that is not blank is a message for the chat.
-/
import Liveboard.Number.Power
import Liveboard.Text.Blank

namespace Liveboard.Cli

inductive Input where
  | chat (text : String)
  | new
  | load (chatId : String)
  | history
  | saved
  | save (index : Nat)
  | delete (componentId : String)
  | combine (componentIds : List String)
  | condense
  | agents
  | quit
  | empty
  | invalid (message : String)
deriving DecidableEq, Repr

namespace Input

/-- A message index: digits, perhaps after a plus sign, in the unsigned 64-bit range. -/
def indexOf? (word : String) : Option Nat :=
  let digits := match word.toList with
    | '+' :: digits => digits
    | digits => digits
  if !digits.isEmpty && digits.all Char.isDigit then
    let n := digits.foldl (fun n c => n * 10 + (c.toNat - '0'.toNat)) 0
    if n < Number.unsignedLimit then some n else none
  else none

/-- The command that the words after the slash make up, if they make up one. -/
def ofWords? : List String → Option Input
  | ["new"] => some new
  | ["load", chatId] => some (load chatId)
  | ["history"] => some history
  | ["saved"] => some saved
  | ["save", word] =>
    match indexOf? word with
    | some index => some (save index)
    | none => some (invalid ("not a message index: " ++ word))
  | ["delete", componentId] => some (delete componentId)
  | "combine" :: first :: second :: rest => some (combine (first :: second :: rest))
  | ["condense"] => some condense
  | ["agents"] => some agents
  | ["quit"] => some quit
  | ["exit"] => some quit
  | _ => none

/-- What a line asks for. -/
def parse (line : String) : Input :=
  match Text.trim line.toList with
  | [] => empty
  | '/' :: command =>
    (ofWords? ((Text.words command).map String.ofList)).getD
      (invalid ("unknown command: /" ++ String.ofList command))
  | text => chat (String.ofList text)

example : parse " /save  +3 " = save 3 := by decide +kernel
example : parse "/save 18446744073709551616" =
    invalid "not a message index: 18446744073709551616" := by decide +kernel
example : parse "/combine a" = invalid "unknown command: /combine a" := by decide +kernel
example : parse " two  words " = chat "two  words" := by decide +kernel

end Input
end Liveboard.Cli
