/-
  Liveboard/Config/Toml/Reader.lean
  =================================
  **Configuration files in TOML.**

  Tables with bare, quoted and dotted keys; strings, numbers, Booleans, arrays and inline
  tables as values.  Dates and arrays of tables have no use in a configuration and are
  refused, as is any key or table that is defined twice.

  Readers are bounded by a number of steps; `read?` starts with twice the length of the
  text.
-/
import Liveboard.Config.Toml.Draft
import Liveboard.Config.Toml.Scalar

namespace Liveboard.Config.Toml

/-! ### Values -/

mutual
/-- A value that may hold arrays and inline tables in one another, as many as there is
    `room` for. -/
def readValue : Nat → Nat → List Char → Option (Setting × List Char)
  | 0, _, _ => none
  | fuel + 1, room, cs =>
    match cs with
    | '"' :: _ => (readString (fuel + 1) cs).map fun (s, rest) => (.text s, rest)
    | '\'' :: _ => (readString (fuel + 1) cs).map fun (s, rest) => (.text s, rest)
    | '[' :: cs =>
      if room = 0 then none
      else (readItems fuel (room - 1) cs).map fun (items, rest) => (.list items, rest)
    | '\x7b' :: cs =>
      if room = 0 then none
      else
        match skipBlanks cs with
        | '\x7d' :: rest => some (.table [], rest)
        | cs =>
          (readEntries fuel (room - 1) [] cs).map fun (drafts, rest) =>
            (.table drafts.toEntries, rest)
    | cs => do
      let value ← scalar? (cs.takeWhile isScalarChar)
      some (value, cs.dropWhile isScalarChar)
termination_by structural fuel => fuel

/-- The items of an array and its closing bracket. -/
def readItems : Nat → Nat → List Char → Option (List Setting × List Char)
  | 0, _, _ => none
  | fuel + 1, room, cs =>
    match skipLines (fuel + 1) cs with
    | ']' :: rest => some ([], rest)
    | cs => do
      let (item, cs) ← readValue fuel room cs
      match skipLines (fuel + 1) cs with
      | ',' :: rest => do
        let (items, rest) ← readItems fuel room rest
        some (item :: items, rest)
      | ']' :: rest => some ([item], rest)
      | _ => none
termination_by structural fuel => fuel

/-- The entries of an inline table and its closing brace. -/
def readEntries : Nat → Nat → Drafts → List Char → Option (Drafts × List Char)
  | 0, _, _, _ => none
  | fuel + 1, room, drafts, cs => do
    let (path, cs) ← readKey (fuel + 1) cs
    match cs with
    | '=' :: cs => do
      let (value, cs) ← readValue fuel room (skipBlanks cs)
      let drafts ← drafts.assign? path value
      match skipBlanks cs with
      | ',' :: rest => readEntries fuel room drafts rest
      | '\x7d' :: rest => some (drafts, rest)
      | _ => none
    | _ => none
termination_by structural fuel => fuel
end

/-! ### Documents -/

/-- A table header after its opening bracket. -/
def readHeader (fuel : Nat) (document : Document) (cs : List Char) :
    Option (Document × List Char) := do
  let (path, cs) ← readKey fuel cs
  match cs with
  | ']' :: rest => some (← document.openTable? path, rest)
  | _ => none

def readAssignment (fuel : Nat) (document : Document) (cs : List Char) :
    Option (Document × List Char) := do
  let (path, cs) ← readKey fuel cs
  match cs with
  | '=' :: cs => do
    let (value, rest) ← readValue fuel (depthLimit - 1) (skipBlanks cs)
    some (← document.assign? path value, rest)
  | _ => none

def readDocument : Nat → Document → List Char → Option Document
  | 0, _, _ => none
  | fuel + 1, document, cs =>
    match skipLines (fuel + 1) cs with
    | [] => some document
    | '[' :: rest => do
      let (document, rest) ← readHeader (fuel + 1) document rest
      readDocument fuel document (← endLine rest)
    | rest => do
      let (document, rest) ← readAssignment (fuel + 1) document rest
      readDocument fuel document (← endLine rest)

/-- A byte order mark in front does not count. -/
def skipMark : List Char → List Char
  | '\uFEFF' :: cs => cs
  | cs => cs

/-- The table a text denotes. -/
def read? (text : String) : Option Setting := do
  let cs := skipMark text.toList
  let document ← readDocument (2 * cs.length + 2) .start cs
  some (.table document.root.toEntries)

end Liveboard.Config.Toml
