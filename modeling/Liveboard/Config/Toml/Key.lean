/-
  Liveboard/Config/Toml/Key.lean
  ==============================
  **Keys of TOML**: bare or quoted parts with points between them.
-/
import Liveboard.Config.Toml.Text

namespace Liveboard.Config.Toml

/-- A key has fewer parts than this, and fewer arrays and inline tables than this stand
    in one another. -/
def depthLimit : Nat := 80

def isBare (c : Char) : Bool := c.isAlphanum || c == '_' || c == '-'

def readKeyPart (fuel : Nat) (cs : List Char) : Option (String × List Char) :=
  match cs with
  | '"' :: rest => readBasic fuel [] rest
  | '\'' :: rest => readLiteral rest
  | _ =>
    let bare := cs.takeWhile isBare
    if bare.isEmpty then none else some (String.ofList bare, cs.dropWhile isBare)

def readKeyParts : Nat → List Char → Option (List String × List Char)
  | 0, _ => none
  | fuel + 1, cs => do
    let (part, cs) ← readKeyPart (fuel + 1) (skipBlanks cs)
    match skipBlanks cs with
    | '.' :: rest => do
      let (parts, rest) ← readKeyParts fuel rest
      some (part :: parts, rest)
    | rest => some ([part], rest)

/-- A key and the text after the blanks that follow it. -/
def readKey (fuel : Nat) (cs : List Char) : Option (List String × List Char) := do
  let (parts, rest) ← readKeyParts fuel cs
  if parts.length < depthLimit then some (parts, rest) else none

theorem length_lt_of_readKey {fuel : Nat} {cs rest : List Char} {parts : List String}
    (h : readKey fuel cs = some (parts, rest)) : parts.length < depthLimit := by
  simp only [readKey, Option.bind_eq_bind, Option.bind_eq_some_iff] at h
  obtain ⟨⟨found, left⟩, -, h⟩ := h
  split at h
  · next short => simp_all
  · simp at h

end Liveboard.Config.Toml
