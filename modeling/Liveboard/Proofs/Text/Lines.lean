/-
  Liveboard/Proofs/Text/Lines.lean
  ================================
  **The lines of a text.**

  A newline ends a line.  A text that is put together of pieces with a newline after each has a
  line for each piece and one more for each newline inside of a piece (`length_lines_ended`), so
  that the pieces are the lines if no newline stands in them (`lines_ended`).
-/

namespace Liveboard.Text

variable {line piece cs : List Char} {pieces : List (List Char)}

/-- The lines of a text.  What follows the last newline is a line as well, if it is anything. -/
def lines : List Char → List (List Char)
  | [] => []
  | c :: cs =>
    if c = '\n' then [] :: lines cs
    else match lines cs with
      | [] => [[c]]
      | line :: later => (c :: line) :: later

/-- The pieces one after the other, each ended by a newline. -/
def ended (pieces : List (List Char)) : List Char := pieces.flatMap (· ++ ['\n'])

theorem ended_cons (piece : List Char) (pieces : List (List Char)) :
    ended (piece :: pieces) = piece ++ '\n' :: ended pieces := by
  simp [ended]

theorem ended_append (pieces others : List (List Char)) :
    ended (pieces ++ others) = ended pieces ++ ended others :=
  List.flatMap_append

theorem lines_newline (cs : List Char) : lines ('\n' :: cs) = [] :: lines cs := by
  rw [lines, if_pos rfl]

theorem lines_cons {c : Char} {later : List (List Char)} (other : c ≠ '\n')
    (found : lines cs = line :: later) : lines (c :: cs) = (c :: line) :: later := by
  rw [lines, if_neg other, found]

theorem exists_lines_cons (c : Char) (cs : List Char) :
    ∃ line later, lines (c :: cs) = line :: later := by
  by_cases newline : c = '\n'
  · exact ⟨[], lines cs, newline ▸ lines_newline cs⟩
  · rw [lines, if_neg newline]
    cases lines cs with
    | nil => exact ⟨[c], [], rfl⟩
    | cons line later => exact ⟨c :: line, later, rfl⟩

theorem newline_not_mem_lines (cs : List Char) : ∀ line ∈ lines cs, '\n' ∉ line := by
  induction cs with
  | nil =>
    intro line mem
    cases mem
  | cons c cs ih =>
    by_cases newline : c = '\n'
    · rw [newline, lines_newline]
      exact List.forall_mem_cons.mpr ⟨List.not_mem_nil, ih⟩
    · rw [lines, if_neg newline]
      have alone : ∀ {line : List Char}, '\n' ∉ line → '\n' ∉ c :: line := by
        intro line free mem
        rcases List.mem_cons.mp mem with same | mem
        · exact newline same.symm
        · exact free mem
      cases found : lines cs with
      | nil => exact List.forall_mem_singleton.mpr (alone List.not_mem_nil)
      | cons line later =>
        rw [found] at ih
        obtain ⟨first, others⟩ := List.forall_mem_cons.mp ih
        exact List.forall_mem_cons.mpr ⟨alone first, others⟩

/-! ### Texts made of pieces -/

/-- A newline ends a line, and what comes after it has lines of its own. -/
theorem lines_append_newline (piece cs : List Char) :
    lines (piece ++ '\n' :: cs) = lines (piece ++ ['\n']) ++ lines cs := by
  induction piece with
  | nil => exact lines_newline cs
  | cons c piece ih =>
    rw [List.cons_append, List.cons_append]
    by_cases newline : c = '\n'
    · rw [newline, lines_newline, lines_newline, ih, List.cons_append]
    · obtain ⟨line, later, found⟩ : ∃ line later, lines (piece ++ ['\n']) = line :: later := by
        cases piece with
        | nil => exact exists_lines_cons _ _
        | cons d piece => exact exists_lines_cons _ _
      rw [found, List.cons_append] at ih
      rw [lines_cons newline found, lines_cons newline ih, List.cons_append]

/-- The lines of a piece are the piece again. -/
theorem ended_lines_piece (piece : List Char) :
    ended (lines (piece ++ ['\n'])) = piece ++ ['\n'] := by
  induction piece with
  | nil => rfl
  | cons c piece ih =>
    rw [List.cons_append]
    by_cases newline : c = '\n'
    · rw [newline, lines_newline, ended_cons, List.nil_append, ih]
    · cases found : lines (piece ++ ['\n']) with
      | nil =>
        rw [found] at ih
        exact absurd ih.symm (by simp [ended])
      | cons line later =>
        rw [found, ended_cons] at ih
        rw [lines_cons newline found, ended_cons, List.cons_append, ih]

/-- The text consists of its lines, each ended by a newline. -/
theorem ended_lines_ended (pieces : List (List Char)) :
    ended (lines (ended pieces)) = ended pieces := by
  induction pieces with
  | nil => rfl
  | cons piece pieces ih =>
    rw [ended_cons, lines_append_newline, ended_append, ended_lines_piece, ih, List.append_assoc,
      List.singleton_append]

theorem length_lines_piece (piece : List Char) :
    (lines (piece ++ ['\n'])).length = piece.count '\n' + 1 := by
  induction piece with
  | nil => rfl
  | cons c piece ih =>
    rw [List.cons_append]
    by_cases newline : c = '\n'
    · rw [newline, lines_newline, List.length_cons, ih, List.count_cons_self]
    · rw [List.count_cons_of_ne newline, ← ih]
      cases found : lines (piece ++ ['\n']) with
      | nil =>
        rw [found] at ih
        cases ih
      | cons line later => rw [lines_cons newline found, List.length_cons, List.length_cons]

/-- There is a line for each piece, and one for each newline in a piece. -/
theorem length_lines_ended (pieces : List (List Char)) :
    (lines (ended pieces)).length = pieces.length + pieces.flatten.count '\n' := by
  induction pieces with
  | nil => rfl
  | cons piece pieces ih =>
    rw [ended_cons, lines_append_newline, List.length_append, length_lines_piece, ih,
      List.length_cons, List.flatten_cons, List.count_append]
    omega

theorem lines_piece (free : '\n' ∉ piece) : lines (piece ++ ['\n']) = [piece] := by
  induction piece with
  | nil => rfl
  | cons c piece ih =>
    obtain ⟨other, free⟩ := not_or.mp (mt List.mem_cons.mpr free)
    exact lines_cons (Ne.symm other) (ih free)

/-- Pieces without newlines are the lines. -/
theorem lines_ended (free : ∀ piece ∈ pieces, '\n' ∉ piece) : lines (ended pieces) = pieces := by
  induction pieces with
  | nil => rfl
  | cons piece pieces ih =>
    obtain ⟨first, others⟩ := List.forall_mem_cons.mp free
    rw [ended_cons, lines_append_newline, lines_piece first, ih others, List.singleton_append]

end Liveboard.Text
