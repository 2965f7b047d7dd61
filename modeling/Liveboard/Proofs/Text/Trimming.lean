/-
  Liveboard/Proofs/Text/Trimming.lean
  ===================================
  **What trimming leaves of a text.**

  White space around a text does not count (`trim_blank`).  A text is left as it is if its ends
  are not white space (`trimLeft_cons`, `trimRight_append`).
-/
import Liveboard.Text.Blank

namespace Liveboard.Text

variable {before after tail cs : List Char} {c : Char}

theorem trimLeft_cons (solid : isBlank c = false) (cs : List Char) :
    trimLeft (c :: cs) = c :: cs :=
  List.dropWhile_cons_of_neg (by simp [solid])

theorem trimRight_append (some' : tail ≠ []) (solid : ∀ c ∈ tail, isBlank c = false)
    (cs : List Char) : trimRight (cs ++ tail) = cs ++ tail := by
  obtain ⟨last, others, reversed⟩ := List.exists_cons_of_ne_nil (List.reverse_ne_nil_iff.mpr some')
  have mem : last ∈ tail := List.mem_reverse.mp (reversed ▸ List.mem_cons_self)
  rw [trimRight, List.reverse_append, reversed, List.cons_append,
    List.dropWhile_cons_of_neg (by simp [solid last mem]), ← List.cons_append, ← reversed,
    ← List.reverse_append, List.reverse_reverse]

theorem trimLeft_blank (blank : ∀ c ∈ before, isBlank c = true) (cs : List Char) :
    trimLeft (before ++ cs) = trimLeft cs :=
  List.dropWhile_append_of_pos blank

theorem trimRight_blank (blank : ∀ c ∈ after, isBlank c = true) (cs : List Char) :
    trimRight (cs ++ after) = trimRight cs := by
  have blank' : ∀ c ∈ after.reverse, isBlank c = true :=
    fun c mem => blank c (List.mem_reverse.mp mem)
  rw [trimRight, List.reverse_append, List.dropWhile_append_of_pos blank', trimRight]

theorem trim_append_blank (blank : ∀ c ∈ after, isBlank c = true) (cs : List Char) :
    trim (cs ++ after) = trim cs := by
  induction cs with
  | nil =>
    have nothing : trimLeft (after ++ []) = trimLeft [] := trimLeft_blank blank []
    rw [List.append_nil] at nothing
    rw [trim, trim, List.nil_append, nothing]
  | cons c cs ih =>
    by_cases space : isBlank c = true
    · have skip : ∀ more, trim (c :: more) = trim more := by
        intro more
        rw [trim, trimLeft, List.dropWhile_cons_of_pos space, ← trimLeft, trim]
      rw [List.cons_append, skip, skip, ih]
    · have solid : isBlank c = false := by simpa using space
      rw [trim, trim, List.cons_append, trimLeft_cons solid, trimLeft_cons solid,
        ← List.cons_append, trimRight_blank blank]

/-- White space around a text does not count. -/
theorem trim_blank (left : ∀ c ∈ before, isBlank c = true) (right : ∀ c ∈ after, isBlank c = true)
    (cs : List Char) : trim (before ++ cs ++ after) = trim cs := by
  rw [trim_append_blank right, trim, trimLeft_blank left, trim]

end Liveboard.Text
