/-
  Liveboard/Config/Folder.lean
  ============================
  **Where the configuration lives.**

  An explicit folder is taken as it is.  Otherwise it is `ui-session` in the user's folder
  for configurations: `XDG_CONFIG_HOME` if that is an absolute path, else `.config` in the
  home folder.
-/

namespace Liveboard.Config.Folder

/-- A path one level down. -/
def join (folder entry : String) : String :=
  if folder.isEmpty then entry
  else if folder.toList.getLast? = some '/' then folder ++ entry
  else folder ++ "/" ++ entry

def isAbsolute (path : String) : Bool := path.toList.head? = some '/'

/-- The user's folder for configurations, if the environment tells. -/
def userFolder? (environment : List (String × String)) : Option String :=
  match (environment.lookup "XDG_CONFIG_HOME").filter isAbsolute with
  | some folder => some folder
  | none => ((environment.lookup "HOME").filter fun home => !home.isEmpty).map (join · ".config")

/-- The folder that holds `config.toml`. -/
def resolve? (custom : Option String) (environment : List (String × String)) : Option String :=
  match custom with
  | some folder => some folder
  | none => (userFolder? environment).map (join · "ui-session")

end Liveboard.Config.Folder
