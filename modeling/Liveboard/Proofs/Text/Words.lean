/-
  Liveboard/Proofs/Text/Words.lean
  ================================
  **What trimming and splitting find in a text.**

  A text bears what is left of it when the white space around it is taken away (`Bears`), and it
  spells its words with white space around and between them (`Spells`).  Either is what the
  function computes and nothing else (`trim_eq_iff`, `words_eq_iff`): how much white space there
  is does not matter, and what stands between it is kept.
-/
import Liveboard.Proofs.Text.Trimming

namespace Liveboard.Text

variable {before after core gap word rest cs : List Char} {ws : List (List Char)} {c : Char}

/-! ### Trimming -/

/-- The text is the core with white space around it, and the core has none at its ends. -/
structure Bears (cs core : List Char) : Prop where
  parts : ∃ before after, cs = before ++ core ++ after ∧
    (∀ c ∈ before, isBlank c = true) ∧ ∀ c ∈ after, isBlank c = true
  head : ∀ c ∈ core.head?, isBlank c = false
  last : ∀ c ∈ core.getLast?, isBlank c = false

theorem trimLeft_of_head (head : ∀ c ∈ core.head?, isBlank c = false) : trimLeft core = core := by
  cases core with
  | nil => rfl
  | cons c core => exact trimLeft_cons (head c rfl) core

theorem trimRight_of_last (last : ∀ c ∈ core.getLast?, isBlank c = false) :
    trimRight core = core := by
  rw [trimRight, ← trimLeft, trimLeft_of_head, List.reverse_reverse]
  rw [List.head?_reverse]
  exact last

theorem head_trimLeft (cs : List Char) : ∀ c ∈ (trimLeft cs).head?, isBlank c = false := by
  intro c first
  have kept := List.head?_dropWhile_not isBlank cs
  rw [← trimLeft, first] at kept
  exact kept

theorem exists_blank_trimLeft (cs : List Char) :
    ∃ before, cs = before ++ trimLeft cs ∧ ∀ c ∈ before, isBlank c = true :=
  ⟨cs.takeWhile isBlank, List.takeWhile_append_dropWhile.symm,
    List.all_eq_true.mp List.all_takeWhile⟩

theorem exists_trimRight_blank (cs : List Char) :
    ∃ after, cs = trimRight cs ++ after ∧ ∀ c ∈ after, isBlank c = true := by
  obtain ⟨before, whole, blank⟩ := exists_blank_trimLeft cs.reverse
  refine ⟨before.reverse, ?_, fun c mem => blank c (List.mem_reverse.mp mem)⟩
  rw [trimRight, ← trimLeft, ← List.reverse_append, ← whole, List.reverse_reverse]

theorem last_trimRight (cs : List Char) : ∀ c ∈ (trimRight cs).getLast?, isBlank c = false := by
  rw [trimRight, ← trimLeft, List.getLast?_reverse]
  exact head_trimLeft cs.reverse

theorem bears_trim (cs : List Char) : Bears cs (trim cs) := by
  obtain ⟨before, whole, left⟩ := exists_blank_trimLeft cs
  obtain ⟨after, rest, right⟩ := exists_trimRight_blank (trimLeft cs)
  refine ⟨⟨before, after, ?_, left, right⟩, ?_, last_trimRight _⟩
  · rw [trim, List.append_assoc, ← rest, ← whole]
  · intro c first
    refine head_trimLeft cs c ?_
    rw [rest, List.head?_append, ← trim, first]
    rfl

/-- Trimming finds the text between the white space. -/
theorem trim_eq_iff : trim cs = core ↔ Bears cs core := by
  constructor
  · rintro rfl
    exact bears_trim cs
  · rintro ⟨⟨before, after, rfl, left, right⟩, head, last⟩
    rw [trim_blank left right, trim, trimLeft_of_head head, trimRight_of_last last]

theorem bears_nil_iff : Bears cs [] ↔ ∀ c ∈ cs, isBlank c = true := by
  constructor
  · rintro ⟨⟨before, after, rfl, left, right⟩, -, -⟩ c mem
    rw [List.append_nil] at mem
    rcases List.mem_append.mp mem with mem | mem
    · exact left c mem
    · exact right c mem
  · intro blank
    exact ⟨⟨cs, [], (by simp), blank, by simp⟩, by simp, by simp⟩

/-! ### Words -/

/-- The text consists of the words with white space between them, and perhaps around them. -/
inductive Spells : List Char → List (List Char) → Prop where
  | blank {gap : List Char} (blank : ∀ c ∈ gap, isBlank c = true) : Spells gap []
  | word {gap word rest : List Char} {ws : List (List Char)}
    (blank : ∀ c ∈ gap, isBlank c = true) (some' : word ≠ [])
    (solid : ∀ c ∈ word, isBlank c = false) (ends : ∀ c ∈ rest.head?, isBlank c = true)
    (later : Spells rest ws) : Spells (gap ++ word ++ rest) (word :: ws)

theorem words_cons_blank (blank : isBlank c = true) (cs : List Char) :
    words (c :: cs) = words cs := by
  rw [words.eq_def]
  exact if_pos blank

theorem words_cons_solid {d : Char} (first : isBlank c = false) (next : isBlank d = false)
    (found : words (d :: cs) = word :: ws) : words (c :: d :: cs) = (c :: word) :: ws := by
  rw [words.eq_def]
  simp only [first, next, found, Bool.false_eq_true, if_false]

theorem words_solid (first : isBlank c = false) : words [c] = [[c]] := by
  rw [words.eq_def]
  simp only [first, Bool.false_eq_true, if_false]

theorem words_cons_ended {d : Char} (first : isBlank c = false) (next : isBlank d = true)
    (cs : List Char) : words (c :: d :: cs) = [c] :: words (d :: cs) := by
  rw [words.eq_def]
  simp only [first, next, Bool.false_eq_true, if_false, if_true]

theorem words_blank_append (blank : ∀ c ∈ gap, isBlank c = true) (cs : List Char) :
    words (gap ++ cs) = words cs := by
  induction gap with
  | nil => rfl
  | cons c gap ih =>
    obtain ⟨first, others⟩ := List.forall_mem_cons.mp blank
    rw [List.cons_append, words_cons_blank first, ih others]

theorem words_solid_append (some' : word ≠ []) (solid : ∀ c ∈ word, isBlank c = false)
    (ends : ∀ c ∈ rest.head?, isBlank c = true) : words (word ++ rest) = word :: words rest := by
  induction word with
  | nil => exact absurd rfl some'
  | cons c word ih =>
    obtain ⟨first, others⟩ := List.forall_mem_cons.mp solid
    cases word with
    | nil =>
      cases rest with
      | nil => exact words_solid first
      | cons d rest => exact words_cons_ended first (ends d rfl) rest
    | cons d word =>
      have next : isBlank d = false := others d List.mem_cons_self
      have found : words (d :: (word ++ rest)) = (d :: word) :: words rest :=
        ih (List.cons_ne_nil d word) others
      exact words_cons_solid first next found

theorem words_of_spells (spells : Spells cs ws) : words cs = ws := by
  induction spells with
  | blank blank =>
    have none := words_blank_append blank []
    rwa [List.append_nil] at none
  | word blank some' solid ends later ih =>
    rw [List.append_assoc, words_blank_append blank, words_solid_append some' solid ends, ih]

theorem Spells.cons_blank (spells : Spells cs ws) (space : isBlank c = true) :
    Spells (c :: cs) ws := by
  cases spells with
  | blank blank => exact .blank (List.forall_mem_cons.mpr ⟨space, blank⟩)
  | @word gap word rest ws blank some' solid ends later =>
    exact .word (List.forall_mem_cons.mpr ⟨space, blank⟩) some' solid ends later

/-- A character in front begins the first word, or it is a word of its own. -/
theorem Spells.exists_cons_solid (spells : Spells cs ws) (solid : isBlank c = false) :
    ∃ ws', Spells (c :: cs) ws' := by
  have alone : ∀ d ∈ [c], isBlank d = false := List.forall_mem_singleton.mpr solid
  have nothing : ∀ d ∈ ([] : List Char), isBlank d = true := by simp
  cases spells with
  | blank blank =>
    have ends : ∀ d ∈ cs.head?, isBlank d = true := fun d first => blank d (List.mem_of_head? first)
    exact ⟨[[c]], .word nothing (List.cons_ne_nil c []) alone ends (.blank blank)⟩
  | @word gap word rest ws blank some' solid' ends later =>
    cases gap with
    | nil =>
      exact ⟨(c :: word) :: ws, .word nothing (List.cons_ne_nil c word)
        (List.forall_mem_cons.mpr ⟨solid, solid'⟩) ends later⟩
    | cons d gap =>
      have space : ∀ e ∈ (d :: gap ++ word ++ rest).head?, isBlank e = true := by
        intro e first
        cases first
        exact blank d List.mem_cons_self
      exact ⟨[c] :: word :: ws, .word nothing (List.cons_ne_nil c []) alone space
        (.word blank some' solid' ends later)⟩

theorem exists_spells (cs : List Char) : ∃ ws, Spells cs ws := by
  induction cs with
  | nil => exact ⟨[], .blank (by simp)⟩
  | cons c cs ih =>
    obtain ⟨ws, spells⟩ := ih
    cases space : isBlank c with
    | true => exact ⟨ws, spells.cons_blank space⟩
    | false => exact spells.exists_cons_solid space

theorem Spells.append_blank (spells : Spells cs ws) (blank : ∀ c ∈ after, isBlank c = true) :
    Spells (cs ++ after) ws := by
  induction spells with
  | blank before =>
    refine .blank fun c mem => ?_
    rcases List.mem_append.mp mem with mem | mem
    · exact before c mem
    · exact blank c mem
  | @word gap word rest ws before some' solid ends later ih =>
    rw [List.append_assoc _ rest after]
    refine .word before some' solid (fun c first => ?_) ih
    cases rest with
    | nil => exact blank c (List.mem_of_head? first)
    | cons d rest => exact ends c first

/-- Splitting finds the words of a text. -/
theorem words_eq_iff : words cs = ws ↔ Spells cs ws := by
  constructor
  · rintro rfl
    obtain ⟨ws, spells⟩ := exists_spells cs
    rwa [words_of_spells spells]
  · exact words_of_spells

end Liveboard.Text
