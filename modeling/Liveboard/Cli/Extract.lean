/-
  Liveboard/Cli/Extract.lean
  ==========================
  **The savable components of a file**, listed without a session.
-/
import Liveboard.Component.Forest
import Liveboard.Component.Savable
import Liveboard.Json.Reader
import Liveboard.Json.Writer

namespace Liveboard.Cli

inductive ExtractError where
  | unreadable (path : String)
  | notJson (path : String)
deriving DecidableEq, Repr

def ExtractError.message : ExtractError → String
  | .unreadable path => "failed to read " ++ path
  | .notJson path => path ++ " is not valid JSON"

/-- The forest in a file: a list is one, any other value is the list of that one. -/
def fileForest : Json → Forest
  | .arr items => Forest.ofItems items
  | json => Forest.ofItems [json]

/-- What to print for a file with these contents; a file that cannot be read has none. -/
def extract (path : String) (contents : Option String) : Except ExtractError String :=
  match contents with
  | none => .error (.unreadable path)
  | some text =>
    match Json.read? text with
    | none => .error (.notJson path)
    | some json => .ok (Json.arr ((fileForest json).savables.map Savable.wire)).pretty

end Liveboard.Cli
