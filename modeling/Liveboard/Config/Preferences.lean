/-
  Liveboard/Config/Preferences.lean
  =================================
  **The configuration of a client and where it comes from.**

  Three layers, the upper ones winning setting by setting: the defaults, the file
  `config.toml`, the environment.  What no layer sets has its default; what is not known
  is ignored; what counts in the end must have the right type.
-/
import Liveboard.Config.Environment
import Liveboard.Config.Toml.Reader
import Liveboard.Session.Connection

namespace Liveboard.Config

/-- Everything that can be configured; durations in milliseconds. -/
structure Preferences where
  url : String
  token : Option String
  capabilities : List String
  reconnectDelay : Nat
  resumeDelay : Nat
  saveTimeout : Nat
  errorTtl : Nat
deriving DecidableEq, Repr

namespace Preferences

def default : Preferences where
  url := "ws://127.0.0.1:8000/ws/ui"
  token := none
  capabilities := ["ui_render", "ui_update", "saved_components", "combine_components"]
  reconnectDelay := 3000
  resumeDelay := 500
  saveTimeout := 10000
  errorTtl := 5000

/-- What a session needs of it. -/
def settings (preferences : Preferences) : Session.Settings where
  url := preferences.url
  capabilities := preferences.capabilities
  reconnectDelay := preferences.reconnectDelay
  resumeDelay := preferences.resumeDelay
  saveTimeout := preferences.saveTimeout
  errorTtl := preferences.errorTtl

/-! ### Types of settings -/

def text? : Setting → Option String
  | .text s => some s
  | _ => none

def optionalText? : Setting → Option (Option String)
  | .text s => some (some s)
  | .empty => some none
  | _ => none

def count? : Setting → Option Nat
  | .integer n => if 0 ≤ n && n < Number.unsignedLimit then some n.toNat else none
  | _ => none

def texts? : Setting → Option (List String)
  | .list items => items.mapM text?
  | _ => none

/-! ### Groups of settings -/

/-- Whether a list that stands for a group may be longer than the group. -/
inductive Excess where
  | ignored
  | refused
deriving DecidableEq

/-- The settings of a group by name.  A list gives them in order. -/
def group? (excess : Excess) (names : List String) : Setting → Option Entries
  | .table entries => some entries
  | .list items =>
    if excess = .ignored || items.length ≤ names.length then some (names.zip items) else none
  | _ => none

/-- A setting that is missing has its default. -/
def setting? {α : Type} (entries : Entries) (name : String) (default : α)
    (decode : Setting → Option α) : Option α :=
  match entries.lookup name with
  | some value => decode value
  | none => some default

/-- The settings of a group inside another; a missing group is an empty one. -/
def inner? (excess : Excess) (entries : Entries) (name : String) (names : List String) :
    Option Entries :=
  setting? entries name [] (group? excess names)

def groupNames : List String := ["server", "auth", "timing", "capabilities"]

def timingNames : List String :=
  ["reconnect_delay_ms", "resume_delay_ms", "save_timeout_ms", "error_ttl_ms"]

/-- The preferences that a table of settings denotes. -/
def ofSetting? (excess : Excess) (root : Setting) : Option Preferences := do
  let root ← group? excess groupNames root
  let server ← inner? excess root "server" ["url"]
  let auth ← inner? excess root "auth" ["token"]
  let timing ← inner? excess root "timing" timingNames
  let url ← setting? server "url" default.url text?
  let token ← setting? auth "token" default.token optionalText?
  let reconnectDelay ← setting? timing "reconnect_delay_ms" default.reconnectDelay count?
  let resumeDelay ← setting? timing "resume_delay_ms" default.resumeDelay count?
  let saveTimeout ← setting? timing "save_timeout_ms" default.saveTimeout count?
  let errorTtl ← setting? timing "error_ttl_ms" default.errorTtl count?
  let capabilities ← setting? root "capabilities" default.capabilities texts?
  some { url, token, capabilities, reconnectDelay, resumeDelay, saveTimeout, errorTtl }

/-- The preferences that a JSON value denotes. -/
def ofJson? (json : Json) : Option Preferences := ofSetting? .refused (.ofJson json)

/-- The environment variables that set one setting each. -/
def variableNames : List String :=
  ["UI_SESSION_SERVER__URL", "UI_SESSION_AUTH__TOKEN", "UI_SESSION_TIMING__RECONNECT_DELAY_MS",
   "UI_SESSION_TIMING__RESUME_DELAY_MS", "UI_SESSION_TIMING__SAVE_TIMEOUT_MS",
   "UI_SESSION_TIMING__ERROR_TTL_MS", "UI_SESSION_CAPABILITIES"]

/-! ### Layers -/

/-- The preferences as the lowest layer. -/
def layer (preferences : Preferences) : Setting :=
  .table [
    ("server", .table [("url", .text preferences.url)]),
    ("auth", .table [("token", (preferences.token.map Setting.text).getD .empty)]),
    ("timing", .table [
      ("reconnect_delay_ms", .integer preferences.reconnectDelay),
      ("resume_delay_ms", .integer preferences.resumeDelay),
      ("save_timeout_ms", .integer preferences.saveTimeout),
      ("error_ttl_ms", .integer preferences.errorTtl)]),
    ("capabilities", .list (preferences.capabilities.map .text))]

/-- The preferences from the text of the configuration file, if there is one, and the
    environment. -/
def load (file : Option String) (environment : List (String × String)) : Option Preferences := do
  let file ← match file with
    | some text => Toml.read? text
    | none => some (.table [])
  ofSetting? .ignored ((default.layer.merge file).merge (Environment.read environment))

end Preferences
end Liveboard.Config
