/-
  Liveboard/Config/Environment.lean
  =================================
  **Settings from environment variables.**

  A variable counts if its name, in any case, starts with `UI_SESSION_`; a double
  underscore in the rest separates levels.  Its value is read as an integer, a float, a
  Boolean, a quoted string, a `[list]` or a `{table}` when it looks like one, and is plain
  text, as it stands, otherwise.
-/
import Liveboard.Config.Toml.Scalar
import Liveboard.Text.Blank

namespace Liveboard.Config.Environment

/-! ### Values -/

def isSpace (c : Char) : Bool :=
  c == ' ' || c == '\t' || c == '\n' || c == '\r' || c == '\x0c'

def skipSpace (cs : List Char) : List Char := cs.dropWhile isSpace

/-- The characters that end an unquoted value. -/
def isSeparator (c : Char) : Bool :=
  c == ',' || c == '[' || c == ']' || c == '\x7b' || c == '\x7d'

def natOf? (digits : List Char) : Option Nat :=
  if !digits.isEmpty && digits.all Char.isDigit then
    some (digits.foldl (fun n c => n * 10 + (c.toNat - '0'.toNat)) 0)
  else none

/-- An integer in the unsigned or the signed 64-bit range. -/
def integer? (cs : List Char) : Option Int :=
  match cs with
  | '-' :: digits => do
    let n ← natOf? digits
    if n ≤ Number.signedLimit then some (-n) else none
  | '+' :: digits => unsigned? digits
  | digits => unsigned? digits
where
  unsigned? (digits : List Char) : Option Int := do
    let n ← natOf? digits
    if n < Number.unsignedLimit then some n else none

def allDigits (cs : List Char) : Bool := cs.all Char.isDigit

/-- A number with a point, and perhaps a sign and an exponent. -/
def isFloat (cs : List Char) : Bool :=
  let unsigned := (Toml.splitSign cs).2
  let mantissa := unsigned.takeWhile fun c => !Toml.isExponentMark c
  let whole := mantissa.takeWhile (· != '.')
  let fraction := (mantissa.drop whole.length).drop 1
  mantissa.contains '.' && allDigits whole && allDigits fraction &&
    !(whole.isEmpty && fraction.isEmpty) &&
    match unsigned.drop mantissa.length with
    | [] => true
    | _ :: power =>
      let digits := (Toml.splitSign power).2
      !digits.isEmpty && allDigits digits

/-- An unquoted value, blanks around it aside. -/
def plain (cs : List Char) : Setting :=
  let cs := Text.trim cs
  let text := String.ofList cs
  if isFloat cs then .float text
  else match integer? cs with
    | some n => .integer n
    | none => .text text

def readKey (fuel : Nat) (cs : List Char) : Option (String × List Char) :=
  match skipSpace cs with
  | '"' :: rest => (Toml.readBasic fuel [] rest).map fun (key, rest) => (key, skipSpace rest)
  | cs =>
    let bare := cs.takeWhile Toml.isBare
    if bare.isEmpty then none else some (String.ofList bare, skipSpace (cs.dropWhile Toml.isBare))

mutual
/-- A value with the space around it. -/
def readValue : Nat → List Char → Option (Setting × List Char)
  | 0, _ => none
  | fuel + 1, cs =>
    match skipSpace cs with
    | '\x7b' :: cs => do
      let (entries, rest) ← readEntries fuel [] cs
      some (.table entries, skipSpace rest)
    | '[' :: cs => do
      let (items, rest) ← readItems fuel cs
      some (.list items, skipSpace rest)
    | '"' :: cs => do
      let (s, rest) ← Toml.readBasic (fuel + 1) [] cs
      some (.text s, skipSpace rest)
    | '\'' :: c :: '\'' :: rest => some (.text (String.ofList [c]), skipSpace rest)
    | '\'' :: _ => none
    | 't' :: 'r' :: 'u' :: 'e' :: rest => some (.bool true, skipSpace rest)
    | 'f' :: 'a' :: 'l' :: 's' :: 'e' :: rest => some (.bool false, skipSpace rest)
    | cs =>
      some (plain (cs.takeWhile fun c => !isSeparator c), cs.dropWhile fun c => !isSeparator c)
termination_by structural fuel => fuel

def readItems : Nat → List Char → Option (List Setting × List Char)
  | 0, _ => none
  | fuel + 1, cs =>
    match cs with
    | ']' :: rest => some ([], rest)
    | cs => do
      let (item, cs) ← readValue fuel cs
      match cs with
      | ',' :: rest => do
        let (items, rest) ← readItems fuel rest
        some (item :: items, rest)
      | ']' :: rest => some ([item], rest)
      | _ => none
termination_by structural fuel => fuel

def readEntries : Nat → Entries → List Char → Option (Entries × List Char)
  | 0, _, _ => none
  | fuel + 1, entries, cs =>
    match cs with
    | '\x7d' :: rest => some (entries, rest)
    | cs => do
      let (key, cs) ← readKey (fuel + 1) cs
      match cs with
      | '=' :: cs => do
        let (value, cs) ← readValue fuel cs
        let entries := Setting.alter key (fun _ => value) entries
        match cs with
        | ',' :: rest => readEntries fuel entries rest
        | '\x7d' :: rest => some (entries, rest)
        | _ => none
      | _ => none
termination_by structural fuel => fuel
end

/-- The value that a text looks like.  What is no value as a whole is text as it stands. -/
def valueOf (text : String) : Setting :=
  let cs := text.toList
  match readValue (2 * cs.length + 2) cs with
  | some (value, []) => value
  | _ => .text text

/-! ### Names -/

def marker : List Char := "UI_SESSION_".toList

def lower (cs : List Char) : List Char := cs.map Char.toLower

/-- The levels of a name: double underscores and points separate them. -/
def levels : List Char → List (List Char)
  | [] => [[]]
  | '_' :: '_' :: rest => [] :: levels rest
  | '.' :: rest => [] :: levels rest
  | c :: rest =>
    match levels rest with
    | level :: more => (c :: level) :: more
    | [] => [[c]]

/-- The path of the setting that a variable stands for, if it stands for one. -/
def path? (name : String) : Option (List String) :=
  let name := lower (Text.trim name.toList)
  if (lower marker).isPrefixOf name then
    let path := levels (Text.trim (name.drop marker.length))
    if path.any List.isEmpty then none else some (path.map String.ofList)
  else none

/-- The settings of all variables, later ones over earlier ones. -/
def read (environment : List (String × String)) : Setting :=
  environment.foldl
    (fun settings (name, value) =>
      match path? name with
      | some path => settings.merge (.nest path (valueOf value))
      | none => settings)
    (.table [])

end Liveboard.Config.Environment
