/-
  Liveboard/Cli/Start.lean
  ========================
  **What the program is asked to do, and what a session needs before it starts.**

  Options override the configuration.  Without a credential no session starts.
-/
import Liveboard.Config.Preferences

namespace Liveboard.Cli

structure Options where
  url : Option String
  token : Option String
  chat : Option String
  folder : Option String
deriving DecidableEq, Repr

def Options.none : Options := ⟨.none, .none, .none, .none⟩

inductive Request where
  | extract (path : String)
  | run (options : Options)
deriving DecidableEq, Repr

/-! ### Arguments -/

/-- Options with a value each, in any order; the last of equal ones counts. -/
def Options.parse? (options : Options) : List String → Option Options
  | [] => some options
  | "--url" :: value :: rest => parse? { options with url := some value } rest
  | "--token" :: value :: rest => parse? { options with token := some value } rest
  | "--chat" :: value :: rest => parse? { options with chat := some value } rest
  | "--data-dir" :: value :: rest => parse? { options with folder := some value } rest
  | _ => Option.none

def Request.parse? : List String → Option Request
  | ["extract", path] => some (.extract path)
  | "run" :: rest => (Options.none.parse? rest).map .run
  | _ => none

/-! ### Starting a session -/

inductive StartError where
  | badConfiguration
  | missingToken
deriving DecidableEq, Repr

def StartError.message : StartError → String
  | .badConfiguration => "failed to load configuration"
  | .missingToken => "no token configured; pass --token or set UI_SESSION_AUTH__TOKEN"

/-- The settings and the credential of a session. -/
def prepare (preferences : Config.Preferences) (options : Options) :
    Except StartError (Session.Settings × String) :=
  match options.token <|> preferences.token with
  | some token =>
    .ok ({ preferences.settings with url := options.url.getD preferences.url }, token)
  | none => .error .missingToken

/-- The same from the text of the configuration file and the environment. -/
def start (options : Options) (file : Option String) (environment : List (String × String)) :
    Except StartError (Session.Settings × String) :=
  match Config.Preferences.load file environment with
  | some preferences => prepare preferences options
  | none => .error .badConfiguration

end Liveboard.Cli
