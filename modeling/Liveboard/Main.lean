/-
  Liveboard/Main.lean
  ===================
  **The command line.**

      liveboard extract FILE
      liveboard run [--url URL] [--token TOKEN] [--chat CHAT] [--data-dir FOLDER]

  `extract` lists the savable components of a file.  `run` resolves the configuration and
  needs a credential; this build brings no network transport, so it ends there.
-/
import Liveboard.Cli.Extract
import Liveboard.Cli.Start
import Liveboard.Config.Folder

namespace Liveboard

def usage : String :=
  "usage: liveboard extract FILE\n" ++
    "       liveboard run [--url URL] [--token TOKEN] [--chat CHAT] [--data-dir FOLDER]"

/-- The contents of a file; none if it cannot be read. -/
def contentsOf (path : String) : IO (Option String) := do
  try
    return some (← IO.FS.readFile path)
  catch _ => return none

def runExtract (path : String) : IO UInt32 := do
  match Cli.extract path (← contentsOf path) with
  | .ok text =>
    IO.println text
    return 0
  | .error error =>
    IO.eprintln ("Error: " ++ error.message)
    return 1

/-- The variables that the configuration may depend on. -/
def readEnvironment : IO (List (String × String)) := do
  let names := ["XDG_CONFIG_HOME", "HOME"] ++ Config.Preferences.variableNames
  let found ← names.mapM fun name => do
    return (← IO.getEnv name).map (name, ·)
  return found.filterMap id

def runSession (options : Cli.Options) : IO UInt32 := do
  let environment ← readEnvironment
  match Config.Folder.resolve? options.folder environment with
  | none =>
    IO.eprintln "Error: could not determine config directory"
    return 1
  | some folder =>
    let file ← contentsOf (Config.Folder.join folder "config.toml")
    match Cli.start options file environment with
    | .ok _ =>
      IO.eprintln "Error: no network transport"
      return 1
    | .error error =>
      IO.eprintln ("Error: " ++ error.message)
      return 1

end Liveboard

open Liveboard

def main (arguments : List String) : IO UInt32 := do
  match Cli.Request.parse? arguments with
  | some (.extract path) => runExtract path
  | some (.run options) => runSession options
  | none =>
    IO.eprintln usage
    return 2
