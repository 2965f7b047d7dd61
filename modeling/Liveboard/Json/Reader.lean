/-
  Liveboard/Json/Reader.lean
  ==========================
  **JSON text as values.**

  Each reader takes the rest of the text and returns what it read with what is
  left.  Arrays and objects may nest at most `maxDepth` deep; the last of several
  fields with one key wins.  The first argument bounds the number of steps;
  `read?` starts with twice the length of the text, and each step but one in two
  consumes a character.
-/
import Liveboard.Json.Numeral

namespace Liveboard.Json

def maxDepth : Nat := 127

def isSpace (c : Char) : Bool := c == ' ' || c == '\n' || c == '\t' || c == '\r'

def skipSpace (cs : List Char) : List Char := cs.dropWhile isSpace

/-! ### Strings -/

def hexValue? (c : Char) : Option Nat :=
  if c.isDigit then some (c.toNat - '0'.toNat)
  else if 'a' ≤ c && c ≤ 'f' then some (c.toNat - 'a'.toNat + 10)
  else if 'A' ≤ c && c ≤ 'F' then some (c.toNat - 'A'.toNat + 10)
  else none

/-- Four hexadecimal digits. -/
def readUnit : List Char → Option (Nat × List Char)
  | a :: b :: c :: d :: cs => do
    some ((((← hexValue? a) * 16 + (← hexValue? b)) * 16 + (← hexValue? c)) * 16
      + (← hexValue? d), cs)
  | _ => none

/-- The character a backslash stands for.  Surrogates come in pairs. -/
def readEscape : List Char → Option (Char × List Char)
  | '"' :: cs => some ('"', cs)
  | '\\' :: cs => some ('\\', cs)
  | '/' :: cs => some ('/', cs)
  | 'b' :: cs => some ('\x08', cs)
  | 'f' :: cs => some ('\x0c', cs)
  | 'n' :: cs => some ('\n', cs)
  | 'r' :: cs => some ('\r', cs)
  | 't' :: cs => some ('\t', cs)
  | 'u' :: cs => do
    let (high, cs) ← readUnit cs
    if 0xDC00 ≤ high && high < 0xE000 then none
    else if 0xD800 ≤ high && high < 0xDC00 then
      match cs with
      | '\\' :: 'u' :: cs => do
        let (low, cs) ← readUnit cs
        if 0xDC00 ≤ low && low < 0xE000 then
          some (Char.ofNat (0x10000 + (high - 0xD800) * 0x400 + (low - 0xDC00)), cs)
        else none
      | _ => none
    else some (Char.ofNat high, cs)
  | _ => none

/-- The text of a string after its opening quote; `done` holds the characters
    read so far, last first. -/
def readText : Nat → List Char → List Char → Option (String × List Char)
  | 0, _, _ => none
  | fuel + 1, done, cs =>
    match cs with
    | '"' :: cs => some (String.ofList done.reverse, cs)
    | '\\' :: cs => do
      let (c, cs) ← readEscape cs
      readText fuel (c :: done) cs
    | c :: cs => if c.toNat < 0x20 then none else readText fuel (c :: done) cs
    | [] => none

/-! ### Values -/

mutual
def readValue : Nat → Nat → List Char → Option (Json × List Char)
  | 0, _, _ => none
  | fuel + 1, depth, cs =>
    match cs with
    | 'n' :: 'u' :: 'l' :: 'l' :: cs => some (.null, cs)
    | 't' :: 'r' :: 'u' :: 'e' :: cs => some (.bool true, cs)
    | 'f' :: 'a' :: 'l' :: 's' :: 'e' :: cs => some (.bool false, cs)
    | '"' :: cs => do
      let (s, cs) ← readText (fuel + 1) [] cs
      some (.str s, cs)
    | '[' :: cs =>
      if depth = 0 then none
      else match skipSpace cs with
        | ']' :: cs => some (.arr [], cs)
        | cs => do
          let (items, cs) ← readItems fuel (depth - 1) cs
          some (.arr items, cs)
    | '\x7b' :: cs =>
      if depth = 0 then none
      else match skipSpace cs with
        | '\x7d' :: cs => some (.obj [], cs)
        | cs => do
          let (fields, cs) ← readFields fuel (depth - 1) cs
          some (.obj (Fields.ofList fields), cs)
    | cs => do
      let (n, cs) ← Numeral.read cs
      some (.num n, cs)
termination_by structural fuel => fuel

/-- At least one item, and the closing bracket. -/
def readItems : Nat → Nat → List Char → Option (List Json × List Char)
  | 0, _, _ => none
  | fuel + 1, depth, cs => do
    let (item, cs) ← readValue fuel depth cs
    match skipSpace cs with
    | ',' :: cs => do
      let (items, cs) ← readItems fuel depth (skipSpace cs)
      some (item :: items, cs)
    | ']' :: cs => some ([item], cs)
    | _ => none
termination_by structural fuel => fuel

/-- At least one field, and the closing brace. -/
def readFields : Nat → Nat → List Char → Option (List (String × Json) × List Char)
  | 0, _, _ => none
  | fuel + 1, depth, cs =>
    match cs with
    | '"' :: cs => do
      let (key, cs) ← readText (fuel + 1) [] cs
      match skipSpace cs with
      | ':' :: cs => do
        let (value, cs) ← readValue fuel depth (skipSpace cs)
        match skipSpace cs with
        | ',' :: cs => do
          let (fields, cs) ← readFields fuel depth (skipSpace cs)
          some ((key, value) :: fields, cs)
        | '\x7d' :: cs => some ([(key, value)], cs)
        | _ => none
      | _ => none
    | _ => none
termination_by structural fuel => fuel
end

/-- The value a text denotes: one value with white space around it, nothing else. -/
def read? (text : String) : Option Json :=
  let cs := skipSpace text.toList
  match readValue (2 * cs.length + 2) maxDepth cs with
  | some (value, rest) => if (skipSpace rest).isEmpty then some value else none
  | none => none

end Liveboard.Json
