/-
  Liveboard/Proofs/Time/Digits.lean
  =================================
  **Digits in front of a text.**

  A run of digits of known width (`Digits`) is taken off the text behind it by every reader of
  numbers, whether the reader asks for the width (`exactly`), only bounds it (`atMost`,
  `loosePair`, `looseYear`) or stops where the digits stop (`fraction`).  A number written with
  leading zeros is such a run, and its value is the number (`value_padded`).  What a reader
  passes over never has a `Z` in it.
-/
import Liveboard.Proofs.Text.Trimming
import Liveboard.Time.Reading

namespace Liveboard.Time

open Number (tenTo)

variable {width n : Nat} {cs rest : List Char}

/-! ### Single characters -/

theorem toNat_of_isDigit {c : Char} (digit : c.isDigit = true) : 48 ≤ c.toNat ∧ c.toNat ≤ 57 := by
  simp only [Char.isDigit, Bool.and_eq_true, decide_eq_true_eq, ge_iff_le,
    UInt32.le_iff_toNat_le] at digit
  exact digit

theorem isBlank_of_isDigit {c : Char} (digit : c.isDigit = true) : Text.isBlank c = false := by
  have range := toNat_of_isDigit digit
  rw [Bool.eq_false_iff]
  simp only [Text.isBlank, ne_eq, Bool.or_eq_true, Bool.and_eq_true, decide_eq_true_eq, beq_iff_eq]
  omega

theorem digitValue_lt {c : Char} (digit : c.isDigit = true) : digitValue c < 10 := by
  have range := toNat_of_isDigit digit
  have zero : '0'.toNat = 48 := rfl
  rw [digitValue, zero]
  omega

theorem isDigit_digitChar (n : Nat) : (Nat.digitChar (n % 10)).isDigit = true := by
  have each : ∀ k : Fin 10, (Nat.digitChar k).isDigit = true := by decide
  exact each ⟨n % 10, Nat.mod_lt n (by decide)⟩

theorem digitValue_digitChar (n : Nat) : digitValue (Nat.digitChar (n % 10)) = n % 10 := by
  have each : ∀ k : Fin 10, digitValue (Nat.digitChar k) = k := by decide
  exact each ⟨n % 10, Nat.mod_lt n (by decide)⟩

theorem literal_cons (c : Char) (cs : List Char) : literal c (c :: cs) = some cs := by
  rw [literal, if_pos rfl]

/-! ### Runs of digits -/

/-- So many decimal digits. -/
structure Digits (width : Nat) where
  chars : List Char
  length_chars : chars.length = width
  areDigits : ∀ c ∈ chars, c.isDigit = true

namespace Digits

def value (digits : Digits width) : Nat := natOf digits.chars

theorem exactly_append (digits : Digits width) (rest : List Char) :
    exactly width (digits.chars ++ rest) = some (digits.value, rest) := by
  have all : digits.chars.all Char.isDigit = true := List.all_eq_true.mpr digits.areDigits
  rw [exactly, List.take_left' digits.length_chars, List.drop_left' digits.length_chars]
  simp [digits.length_chars, all, value]

theorem takeWhile_chars (digits : Digits width) :
    digits.chars.takeWhile Char.isDigit = digits.chars := by
  have whole : (digits.chars ++ []).takeWhile Char.isDigit = digits.chars ++ [] :=
    List.takeWhile_append_of_pos digits.areDigits
  rwa [List.append_nil] at whole

theorem atMost_append (digits : Digits (width + 1)) (rest : List Char) :
    atMost (width + 1) (digits.chars ++ rest) = some (digits.value, rest) := by
  have some' : digits.chars.isEmpty = false := by
    rw [List.isEmpty_eq_false_iff, ← List.length_pos_iff, digits.length_chars]
    exact Nat.succ_pos width
  rw [atMost, List.take_left' digits.length_chars, digits.takeWhile_chars, some',
    List.drop_left' rfl]
  rfl

theorem exists_cons (digits : Digits (width + 1)) (rest : List Char) :
    ∃ c cs, digits.chars ++ rest = c :: cs ∧ c.isDigit = true := by
  obtain ⟨c, cs, split⟩ := List.exists_cons_of_length_eq_add_one digits.length_chars
  have digit := digits.areDigits c (split ▸ List.mem_cons_self)
  exact ⟨c, cs ++ rest, by rw [split, List.cons_append], digit⟩

theorem trimLeft_append (digits : Digits (width + 1)) (rest : List Char) :
    Text.trimLeft (digits.chars ++ rest) = digits.chars ++ rest := by
  obtain ⟨c, cs, split, digit⟩ := digits.exists_cons rest
  rw [split, Text.trimLeft_cons (isBlank_of_isDigit digit)]

theorem loosePair_append (digits : Digits 2) (rest : List Char) :
    loosePair (digits.chars ++ rest) = some (digits.value, rest) := by
  rw [loosePair, digits.trimLeft_append, digits.atMost_append]

theorem looseYear_append (digits : Digits 4) (rest : List Char) :
    looseYear (digits.chars ++ rest) = some ((digits.value : Int), rest) := by
  obtain ⟨c, cs, split, digit⟩ := digits.exists_cons rest
  have number := digits.atMost_append rest
  unfold looseYear
  rw [digits.trimLeft_append]
  -- a sign would be the first digit
  split
  · next minus =>
    rw [split] at minus
    cases minus
    cases digit
  · next plus =>
    rw [split] at plus
    cases plus
    cases digit
  · rw [number]
    rfl

end Digits

/-! ### Fractions -/

/-- What may follow a fraction and not be taken for a part of it. -/
def EndsFraction (rest : List Char) : Prop := ∀ c ∈ rest.head?, c.isDigit = false ∧ c ≠ '.'

theorem endsFraction_nil : EndsFraction [] := by
  intro c mem
  cases mem

theorem endsFraction_cons {c : Char} (notDigit : c.isDigit = false) (notPoint : c ≠ '.')
    (rest : List Char) : EndsFraction (c :: rest) := by
  intro d mem
  cases mem
  exact ⟨notDigit, notPoint⟩

theorem fraction_of_ends (ends : EndsFraction rest) : fraction rest = some (0, rest) := by
  unfold fraction
  split
  · exact absurd rfl (ends '.' rfl).2
  · rfl

theorem fraction_point {digits : List Char} (some' : digits.isEmpty = false)
    (all : ∀ c ∈ digits, c.isDigit = true) (ends : EndsFraction rest) :
    fraction ('.' :: (digits ++ rest)) = some (nanosOf digits, rest) := by
  have stops : rest.takeWhile Char.isDigit = [] ∧ rest.dropWhile Char.isDigit = rest := by
    cases rest with
    | nil => exact ⟨rfl, rfl⟩
    | cons c rest =>
      have other := (ends c rfl).1
      exact ⟨List.takeWhile_cons_of_neg (by simp [other]),
        List.dropWhile_cons_of_neg (by simp [other])⟩
  simp only [fraction, List.takeWhile_append_of_pos all, List.dropWhile_append_of_pos all, stops,
    List.append_nil, some', Bool.false_eq_true, if_false]

/-! ### Written numbers -/

theorem natOf_append_singleton (digits : List Char) (c : Char) :
    natOf (digits ++ [c]) = natOf digits * 10 + digitValue c := by
  simp [natOf]

theorem natOf_padded (small : n < tenTo width) : natOf (Instant.padded width n) = n := by
  induction width generalizing n with
  | zero => exact (Nat.lt_one_iff.mp small).symm
  | succ width ih =>
    rw [Number.tenTo_succ] at small
    rw [Instant.padded, natOf_append_singleton, digitValue_digitChar, ih (by omega)]
    omega

theorem isDigit_of_mem_padded (width n : Nat) : ∀ c ∈ Instant.padded width n, c.isDigit = true := by
  induction width generalizing n with
  | zero => intro c mem; cases mem
  | succ width ih =>
    intro c mem
    rw [Instant.padded, List.mem_append, List.mem_singleton] at mem
    rcases mem with mem | rfl
    · exact ih _ c mem
    · exact isDigit_digitChar n

/-- The digits of a number, with zeros before them. -/
def Digits.padded (width n : Nat) : Digits width :=
  ⟨Instant.padded width n, Instant.length_padded width n, isDigit_of_mem_padded width n⟩

theorem Digits.value_padded (small : n < tenTo width) : (Digits.padded width n).value = n :=
  natOf_padded small

/-- A number written with so many digits is read with as many. -/
theorem exactly_padded (small : n < tenTo width) (rest : List Char) :
    exactly width (Instant.padded width n ++ rest) = some (n, rest) := by
  have digits := (Digits.padded width n).exactly_append rest
  rwa [Digits.value_padded small] at digits

/-! ### What is passed over

Readers pass over digits, signs, white space and what they look for, but over no `Z`. -/

theorem mem_dropWhile_of_not {p : Char → Bool} {c : Char} (not : p c = false) (mem : c ∈ cs) :
    c ∈ cs.dropWhile p := by
  rw [← List.takeWhile_append_dropWhile (p := p) (l := cs), List.mem_append] at mem
  rcases mem with taken | left
  · have held := List.all_eq_true.mp (List.all_takeWhile (p := p) (l := cs)) c taken
    rw [not] at held
    cases held
  · exact left

theorem mem_trimLeft (mem : 'Z' ∈ cs) : 'Z' ∈ Text.trimLeft cs :=
  mem_dropWhile_of_not rfl mem

theorem mem_of_atMost {width n : Nat} (read : atMost width cs = some (n, rest))
    (mem : 'Z' ∈ cs) : 'Z' ∈ rest := by
  unfold atMost at read
  simp only at read
  split at read
  · cases read
  · cases read
    obtain ⟨left, split⟩ : (cs.take width).takeWhile Char.isDigit <+: cs :=
      (List.takeWhile_prefix _).trans (List.take_prefix _ _)
    generalize digits : (cs.take width).takeWhile Char.isDigit = eaten at split
    have noZ : 'Z' ∉ eaten := by
      intro inside
      rw [← digits] at inside
      exact absurd (List.all_eq_true.mp List.all_takeWhile _ inside) (by decide)
    rw [← split, List.drop_left]
    rw [← split, List.mem_append] at mem
    exact mem.resolve_left noZ

theorem mem_of_unbounded {n : Nat} (read : unbounded cs = some (n, rest)) (mem : 'Z' ∈ cs) :
    'Z' ∈ rest := by
  unfold unbounded at read
  simp only at read
  split at read
  · cases read
  · cases read
    exact mem_dropWhile_of_not rfl mem

theorem mem_of_literal {c : Char} (read : literal c cs = some rest) (other : c ≠ 'Z')
    (mem : 'Z' ∈ cs) : 'Z' ∈ rest := by
  cases cs with
  | nil => cases mem
  | cons d cs =>
    rw [literal] at read
    split at read
    · next same =>
      cases read
      rw [same] at mem
      exact (List.mem_cons.mp mem).resolve_left other.symm
    · cases read

theorem mem_of_fraction {nanos : Nat} (read : fraction cs = some (nanos, rest))
    (mem : 'Z' ∈ cs) : 'Z' ∈ rest := by
  unfold fraction at read
  split at read
  · simp only at read
    split at read
    · cases read
    · cases read
      exact mem_dropWhile_of_not rfl ((List.mem_cons.mp mem).resolve_left (by decide))
  · cases read
    exact mem

theorem mem_of_loosePair {n : Nat} (read : loosePair cs = some (n, rest)) (mem : 'Z' ∈ cs) :
    'Z' ∈ rest :=
  mem_of_atMost read (mem_trimLeft mem)

theorem mem_of_looseYear {year : Int} (read : looseYear cs = some (year, rest))
    (mem : 'Z' ∈ cs) : 'Z' ∈ rest := by
  have mem := mem_trimLeft mem
  unfold looseYear at read
  split at read
  · next start =>
    obtain ⟨⟨n, _⟩, digits, read⟩ := Option.bind_eq_some_iff.mp read
    cases read
    rw [start] at mem
    exact mem_of_unbounded digits ((List.mem_cons.mp mem).resolve_left (by decide))
  · next start =>
    obtain ⟨⟨n, _⟩, digits, read⟩ := Option.bind_eq_some_iff.mp read
    cases read
    rw [start] at mem
    exact mem_of_unbounded digits ((List.mem_cons.mp mem).resolve_left (by decide))
  · obtain ⟨⟨n, _⟩, digits, read⟩ := Option.bind_eq_some_iff.mp read
    cases read
    exact mem_of_atMost digits mem

theorem mem_of_skip {separator : Separator} (read : separator.skip cs = some rest)
    (mem : 'Z' ∈ cs) : 'Z' ∈ rest := by
  cases separator with
  | mark => exact mem_of_literal read (by decide) mem
  | blanks =>
    cases read
    exact mem_trimLeft mem

end Liveboard.Time
