/-
  Liveboard/Text/Blank.lean
  =========================
  **White space and what is cut along it.**

  Titles, command lines, configuration values and timestamps are all trimmed by
  the same rule: the characters with the Unicode property `White_Space`.  The
  functions work on lists of characters, where their laws are short; `trimmed`
  and `wordsOf` are the same on strings.
-/

namespace Liveboard.Text

/-- The characters with the Unicode property `White_Space`. -/
def isBlank (c : Char) : Bool :=
  let n := c.toNat
  (0x09 ≤ n && n ≤ 0x0D) || n == 0x20 || n == 0x85 || n == 0xA0 || n == 0x1680 ||
    (0x2000 ≤ n && n ≤ 0x200A) || n == 0x2028 || n == 0x2029 || n == 0x202F ||
    n == 0x205F || n == 0x3000

/-- White space in the narrow sense is white space. -/
theorem isBlank_of_isWhitespace {c : Char} (h : c.isWhitespace) : isBlank c := by
  simp only [Char.isWhitespace, Bool.or_eq_true, decide_eq_true_eq] at h
  rcases h with ((rfl | rfl) | rfl) | rfl <;> decide

/-! ### Trimming -/

def trimLeft (cs : List Char) : List Char :=
  cs.dropWhile isBlank

def trimRight (cs : List Char) : List Char :=
  (cs.reverse.dropWhile isBlank).reverse

def trim (cs : List Char) : List Char :=
  trimRight (trimLeft cs)

def trimmed (s : String) : String :=
  String.ofList (trim s.toList)

/-! ### Words -/

/-- The maximal runs of characters that are not blank, in order. -/
def words : List Char → List (List Char)
  | [] => []
  | c :: cs =>
    if isBlank c then words cs
    else match cs, words cs with
      | [], _ => [[c]]
      | d :: _, found =>
        if isBlank d then [c] :: found
        else match found with
          | [] => [[c]]
          | w :: ws => (c :: w) :: ws

def wordsOf (s : String) : List String :=
  (words s.toList).map String.ofList

end Liveboard.Text
