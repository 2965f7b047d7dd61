/-
  Liveboard/Config/Toml/Text.lean
  ===============================
  **Lines, comments and strings of TOML.**

  A line ends with a line feed, alone or after a carriage return; a carriage return
  anywhere else is a control character.  Comments and strings hold no control characters
  but tabs.

  Each reader takes the rest of the text and returns what it read with what is left; a
  first argument bounds the number of steps.
-/

namespace Liveboard.Config.Toml

/-! ### Blanks and comments -/

def isBlank (c : Char) : Bool := c == ' ' || c == '\t'

/-- A control character other than a tab. -/
def isControl (c : Char) : Bool := (c.toNat < 0x20 && c != '\t') || c.toNat == 0x7F

def skipBlanks (cs : List Char) : List Char := cs.dropWhile isBlank

/-- The text after a line end. -/
def lineEnd? : List Char → Option (List Char)
  | '\n' :: cs => some cs
  | '\r' :: '\n' :: cs => some cs
  | _ => none

def skipComment : List Char → List Char
  | '#' :: cs => cs.dropWhile (!isControl ·)
  | cs => cs

/-- Blanks and line ends. -/
def skipBlankLines : List Char → List Char
  | '\r' :: '\n' :: cs => skipBlankLines cs
  | c :: cs => if isBlank c || c == '\n' then skipBlankLines cs else c :: cs
  | [] => []

/-- Blanks, comments and line ends. -/
def skipLines : Nat → List Char → List Char
  | 0, cs => cs
  | fuel + 1, cs =>
    let rest := skipComment (skipBlanks cs)
    match lineEnd? rest with
    | some rest => skipLines fuel rest
    | none => rest

/-- The end of the line, or of the text. -/
def endLine (cs : List Char) : Option (List Char) :=
  match skipComment (skipBlanks cs) with
  | [] => some []
  | rest => lineEnd? rest

/-- A comment reaches up to a control character, so no line end is lost in it. -/
theorem skipComment_of_comment {body rest : List Char} (h : ∀ c ∈ body, isControl c = false) :
    skipComment ('#' :: body ++ '\n' :: rest) = '\n' :: rest := by
  have stop : isControl '\n' = true := rfl
  simp only [skipComment, List.cons_append]
  induction body with
  | nil => simp [stop]
  | cons c body ih =>
    rw [List.cons_append, List.dropWhile_cons_of_pos (by simp [h c (List.mem_cons_self ..)])]
    exact ih fun d hd => h d (List.mem_cons_of_mem _ hd)

/-! ### Escapes -/

def hexValue? (c : Char) : Option Nat :=
  if c.isDigit then some (c.toNat - '0'.toNat)
  else if 'a' ≤ c && c ≤ 'f' then some (c.toNat - 'a'.toNat + 10)
  else if 'A' ≤ c && c ≤ 'F' then some (c.toNat - 'A'.toNat + 10)
  else none

/-- The character with a code of exactly so many hexadecimal digits. -/
def readCode (width : Nat) (cs : List Char) : Option (Char × List Char) := do
  let digits ← (cs.take width).mapM hexValue?
  let code := digits.foldl (fun n d => n * 16 + d) 0
  if digits.length = width && (code < 0xD800 || (0xE000 ≤ code && code < 0x110000)) then
    some (Char.ofNat code, cs.drop width)
  else none

/-- The character a backslash stands for. -/
def readEscape : List Char → Option (Char × List Char)
  | '"' :: cs => some ('"', cs)
  | '\\' :: cs => some ('\\', cs)
  | 'b' :: cs => some ('\x08', cs)
  | 'f' :: cs => some ('\x0c', cs)
  | 'n' :: cs => some ('\n', cs)
  | 'r' :: cs => some ('\r', cs)
  | 't' :: cs => some ('\t', cs)
  | 'u' :: cs => readCode 4 cs
  | 'U' :: cs => readCode 8 cs
  | _ => none

/-! ### Strings -/

/-- A basic string after its opening quote; `done` holds its characters, last first. -/
def readBasic : Nat → List Char → List Char → Option (String × List Char)
  | 0, _, _ => none
  | fuel + 1, done, cs =>
    match cs with
    | '"' :: cs => some (String.ofList done.reverse, cs)
    | '\\' :: cs => do
      let (c, cs) ← readEscape cs
      readBasic fuel (c :: done) cs
    | c :: cs => if isControl c then none else readBasic fuel (c :: done) cs
    | [] => none

/-- A literal string after its opening quote. -/
def readLiteral (cs : List Char) : Option (String × List Char) :=
  let body := cs.takeWhile (· != '\'')
  match cs.dropWhile (· != '\'') with
  | _ :: rest => if body.any isControl then none else some (String.ofList body, rest)
  | [] => none

/-- A string over several lines, basic or literal, after its opening quotes.  Every line
    end in it is a line feed; a backslash at the end of a line joins it to the next text. -/
def readLong : Nat → Char → List Char → List Char → Option (String × List Char)
  | 0, _, _, _ => none
  | fuel + 1, quote, done, cs =>
    match lineEnd? cs, cs with
    | some rest, _ => readLong fuel quote ('\n' :: done) rest
    | none, [] => none
    | none, c :: rest =>
      if c = quote && rest.take 2 = [quote, quote] then
        let extra := (rest.drop 2).takeWhile (· == quote)
        if extra.length ≤ 2 then
          some (String.ofList (extra ++ done).reverse, rest.drop (2 + extra.length))
        else none
      else if c = '\\' && quote = '"' then
        match lineEnd? (skipBlanks rest) with
        | some rest => readLong fuel quote done (skipBlankLines rest)
        | none => do
          let (c, rest) ← readEscape rest
          readLong fuel quote (c :: done) rest
      else if isControl c then none
      else readLong fuel quote (c :: done) rest

/-- A line end right after the opening quotes of a long string does not count. -/
def skipFirstLineEnd (cs : List Char) : List Char := (lineEnd? cs).getD cs

/-- A string of any kind. -/
def readString (fuel : Nat) : List Char → Option (String × List Char)
  | '"' :: '"' :: '"' :: cs => readLong fuel '"' [] (skipFirstLineEnd cs)
  | '\'' :: '\'' :: '\'' :: cs => readLong fuel '\'' [] (skipFirstLineEnd cs)
  | '"' :: cs => readBasic fuel [] cs
  | '\'' :: cs => readLiteral cs
  | _ => none

end Liveboard.Config.Toml
