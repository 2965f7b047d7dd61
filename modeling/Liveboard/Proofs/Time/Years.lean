/-
  Liveboard/Proofs/Time/Years.lean
  ================================
  **Timestamps are read back exactly in years of four digits.**

  Every instant is written with `Z` at its end, and a year that has not four digits with its
  sign.  No reader takes both: RFC 3339 wants four digits, and the readers that allow for a sign
  know no offset, so that they pass over everything but the `Z` (`naive?_eq_none`).  With the
  years of four digits, which are read back, this tells exactly which timestamps survive
  (`read_back_in_plain_years`).
-/
import Liveboard.Proofs.Time.Timestamp

namespace Liveboard.Time

variable {cs : List Char}

/-- A text with the mark of UTC is none without an offset. -/
theorem naive?_eq_none (separator : Separator) (mem : 'Z' ∈ cs) : naive? separator cs = none := by
  refine Option.eq_none_iff_forall_ne_some.mpr fun t read => ?_
  obtain ⟨civil, fractionText, fraction, -, kept⟩ := exists_civil_of_naive? read
  have left := mem_of_fraction fraction (kept mem)
  cases left

/-! ### Written years -/

/-- A year that has not four digits is written with its sign. -/
theorem exists_sign {t : Instant} (signed : ¬ t.HasPlainYear) :
    ∃ sign rest, (sign = '+' ∨ sign = '-') ∧ t.chars = sign :: rest := by
  have year : Instant.yearText t.date.year = _ :=
    if_neg (by simpa [Instant.HasPlainYear] using signed)
  by_cases before : t.date.year < 0
  · exact ⟨'-', _, .inr rfl, by rw [Instant.chars, year, if_pos before]; rfl⟩
  · exact ⟨'+', _, .inl rfl, by rw [Instant.chars, year, if_neg before]; rfl⟩

/-- The four digits of a year have no sign. -/
theorem rfc3339?_chars_of_signed {t : Instant} (signed : ¬ t.HasPlainYear) :
    rfc3339? t.chars = none := by
  obtain ⟨sign, rest, either, written⟩ := exists_sign signed
  have notDigit : sign.isDigit = false := by
    rcases either with rfl | rfl <;> rfl
  have refused : exactly 4 (sign :: rest) = none := by
    simp [exactly, notDigit]
  rw [written, rfc3339?, refused]
  rfl

theorem mem_chars (t : Instant) : 'Z' ∈ t.chars := by
  rw [Instant.chars]
  exact List.mem_append_right _ (List.mem_singleton_self 'Z')

theorem trim_chars_of_signed {t : Instant} (signed : ¬ t.HasPlainYear) :
    Text.trim t.chars = t.chars := by
  obtain ⟨sign, rest, either, written⟩ := exists_sign signed
  have solid : Text.isBlank sign = false := by
    rcases either with rfl | rfl <;> rfl
  have left : Text.trimLeft t.chars = t.chars := by
    rw [written, Text.trimLeft_cons solid]
  rw [Text.trim, left, trimRight_chars]

theorem ofJson?_toJson_of_signed {t : Instant} (signed : ¬ t.HasPlainYear) :
    Instant.ofJson? t.toJson = none := by
  rw [Instant.toJson, Instant.ofJson?, Instant.text, String.toList_ofList, ofText?,
    trim_chars_of_signed signed, rfc3339?_chars_of_signed signed,
    naive?_eq_none .mark (mem_chars t), naive?_eq_none .blanks (mem_chars t)]
  rfl

/-- What was read as a timestamp is read back from its text exactly in a year of four digits.
    In any other year the text has a sign in front, and no reader takes it. -/
theorem read_back_in_plain_years {json : Json} {t : Instant}
    (read : Instant.ofJson? json = some t) :
    (Instant.ofJson? t.toJson = if t.HasPlainYear then some t else none) ∧
      (¬ t.HasPlainYear →
        (∃ sign rest, (sign = '+' ∨ sign = '-') ∧ t.chars = sign :: rest) ∧
        rfc3339? t.chars = none ∧ ∀ separator, naive? separator t.chars = none) := by
  refine ⟨?_, fun signed => ?_⟩
  · by_cases plain : t.HasPlainYear
    · rw [if_pos plain, ofJson?_toJson (isRegular_of_ofJson? read) plain]
    · rw [if_neg plain, ofJson?_toJson_of_signed plain]
  · exact ⟨exists_sign signed, rfc3339?_chars_of_signed signed,
      fun separator => naive?_eq_none separator (mem_chars t)⟩

/-- A leap second at the end of the last year of four digits, and the same one on clocks that
    are a minute behind UTC. -/
theorem read_back_around_last_plain_year :
    (∃ t, Instant.ofJson? (.str "9999-12-31T23:59:60.25Z") = some t ∧
      Instant.ofJson? t.toJson = some t) ∧
    (∃ t, Instant.ofJson? (.str "9999-12-31T23:59:60.25-00:01") = some t ∧
      Instant.ofJson? t.toJson = none) := by
  have last : Instant.ofJson? (.str "9999-12-31T23:59:60.25Z") =
      some ⟨253402300799, 1250000000⟩ := by decide +kernel
  have later : Instant.ofJson? (.str "9999-12-31T23:59:60.25-00:01") =
      some ⟨253402300859, 1250000000⟩ := by decide +kernel
  refine ⟨⟨_, last, ?_⟩, ⟨_, later, ?_⟩⟩
  · rw [(read_back_in_plain_years last).1, if_pos (by decide)]
  · rw [(read_back_in_plain_years later).1, if_neg (by decide)]

end Liveboard.Time
