/-
  Liveboard/Proofs/Time/Timestamp.lean
  ====================================
  **A timestamp is read back as the instant that was written.**

  Whatever is read as a timestamp is a regular instant: a second that is longer than the others
  is the last one of its minute (`isRegular_of_ofJson?`).  A regular instant of a year of four
  digits reads back from its text (`ofJson?_toJson`): the date by the calendar, the time of
  day and the fraction digit by digit.
-/
import Liveboard.Proofs.Time.Calendar
import Liveboard.Proofs.Time.Digits

namespace Liveboard.Time

open Number (tenTo)

variable {width n : Nat} {cs rest : List Char}

/-! ### Fractions -/

theorem fraction_padded (some' : 0 < width) (exact' : width ≤ 9) (small : n < tenTo width) :
    fraction ('.' :: (Instant.padded width n ++ ['Z'])) =
      some (n * tenTo (9 - width), ['Z']) := by
  have nonempty : (Instant.padded width n).isEmpty = false := by
    rw [List.isEmpty_eq_false_iff_exists_mem, ← List.length_pos_iff_exists_mem,
      Instant.length_padded]
    exact some'
  have kept : (Instant.padded width n).take 9 = Instant.padded width n :=
    List.take_of_length_le (by rw [Instant.length_padded]; exact exact')
  rw [fraction_point nonempty (isDigit_of_mem_padded width n)
    (endsFraction_cons (by decide) (by decide) []), nanosOf, kept, natOf_padded small,
    Instant.length_padded]

theorem fraction_fractionText {nanos : Nat} (short : nanos < Instant.nanosPerSecond) :
    fraction (Instant.fractionText nanos ++ ['Z']) = some (nanos, ['Z']) := by
  unfold Instant.fractionText
  unfold Instant.nanosPerSecond at short
  have three : tenTo 3 = 1000 := rfl
  have six : tenTo 6 = 1000000 := rfl
  have nine : tenTo 9 = 1000000000 := rfl
  by_cases none : nanos = 0
  · rw [if_pos none, none]
    rfl
  · rw [if_neg none]
    by_cases millis : nanos % 1000000 = 0
    · have whole : nanos / 1000000 * tenTo (9 - 3) = nanos := by
        rw [six]
        omega
      rw [if_pos millis, List.cons_append,
        fraction_padded (by decide) (by decide) (by rw [three]; omega), whole]
    · rw [if_neg millis]
      by_cases micros : nanos % 1000 = 0
      · have whole : nanos / 1000 * tenTo (9 - 6) = nanos := by
          rw [three]
          omega
        rw [if_pos micros, List.cons_append,
          fraction_padded (by decide) (by decide) (by rw [six]; omega), whole]
      · rw [if_neg micros, List.cons_append,
          fraction_padded (by decide) (by decide) (by rw [nine]; exact short),
          Nat.sub_self, Number.tenTo_zero, Nat.mul_one]

/-! ### Regular instants -/

namespace Instant

/-- A second that is longer than the others is the last one of its minute. -/
structure IsRegular (t : Instant) : Prop where
  short : t.nanos < 2 * nanosPerSecond
  leap : nanosPerSecond ≤ t.nanos → t.seconds % 60 = 59

def HasPlainYear (t : Instant) : Prop := 0 ≤ t.date.year ∧ t.date.year ≤ 9999

instance (t : Instant) : Decidable t.HasPlainYear := inferInstanceAs (Decidable (_ ∧ _))

end Instant

/-- The clock of an instant, a long second shown as 60. -/
def Instant.civil (t : Instant) : Civil where
  date := t.date
  hour := (t.seconds % Instant.secondsPerDay).toNat / 3600
  minute := (t.seconds % Instant.secondsPerDay).toNat / 60 % 60
  second := (t.seconds % Instant.secondsPerDay).toNat % 60 + t.nanos / Instant.nanosPerSecond
  nanos := t.nanos % Instant.nanosPerSecond

theorem isValid_date {t : Instant} (plain : t.HasPlainYear) : t.date.isValid = true :=
  Date.isValid_ofDays ⟨Int.le_trans (by decide) plain.1, Int.le_trans plain.2 (by decide)⟩

theorem instant?_civil {t : Instant} (regular : t.IsRegular) (plain : t.HasPlainYear) :
    t.civil.instant? 0 = some t := by
  obtain ⟨short, leap⟩ := regular
  have valid := isValid_date plain
  have days : t.date.toDays = t.seconds / Instant.secondsPerDay := Date.toDays_ofDays _
  obtain ⟨ofDay, m⟩ : ∃ ofDay, ofDay = (t.seconds % Instant.secondsPerDay).toNat := ⟨_, rfl⟩
  obtain ⟨carry, o⟩ : ∃ carry, carry = t.nanos / Instant.nanosPerSecond := ⟨_, rfl⟩
  have clock : t.civil = ⟨t.date, ofDay / 3600, ofDay / 60 % 60, ofDay % 60 + carry,
      t.nanos % Instant.nanosPerSecond⟩ := by
    rw [m, o]
    rfl
  unfold Instant.nanosPerSecond at *
  unfold Instant.secondsPerDay at *
  have inDay : (ofDay : Int) = t.seconds % 86400 ∧ ofDay < 86400 := by omega
  have hours : ofDay / 3600 < 24 := by omega
  have minutes : ofDay / 60 % 60 < 60 := by omega
  -- a second is over only in the last one of a minute
  have overs : carry = 0 ∧ ofDay % 60 + carry ≠ 60 ∨ carry = 1 ∧ ofDay % 60 + carry = 60 := by omega
  have seconds : ofDay % 60 + carry ≤ 60 := by omega
  rw [clock, Civil.instant?]
  simp only [valid, hours, minutes, seconds, days, decide_true, Bool.and_self, if_true,
    Option.some.injEq]
  unfold Instant.nanosPerSecond Instant.secondsPerDay
  rcases overs with ⟨none, other⟩ | ⟨one, leap⟩
  · rw [if_neg other]
    refine congr (congrArg Instant.mk ?_) ?_
    · omega
    · omega
  · rw [if_pos leap]
    refine congr (congrArg Instant.mk ?_) ?_
    · omega
    · omega

theorem chars_eq {t : Instant} (plain : t.HasPlainYear) :
    t.chars = Instant.padded 4 t.date.year.toNat ++ '-' :: (Instant.padded 2 t.date.month ++
      '-' :: (Instant.padded 2 t.date.day ++ 'T' :: (Instant.padded 2 t.civil.hour ++
      ':' :: (Instant.padded 2 t.civil.minute ++ ':' :: (Instant.padded 2 t.civil.second ++
      (Instant.fractionText t.civil.nanos ++ ['Z'])))))) := by
  have year : Instant.yearText t.date.year = Instant.padded 4 t.date.year.toNat := by
    rw [Instant.yearText, if_pos (by simpa [Instant.HasPlainYear] using plain)]
  simp [Instant.chars, year, Instant.civil]

theorem daysInMonth_le (year : Int) (month : Nat) : daysInMonth year month ≤ 31 := by
  unfold daysInMonth
  split
  · split <;> decide
  all_goals decide

/-- Each part of the clock but the year has two digits. -/
theorem civil_lt {t : Instant} (regular : t.IsRegular) (plain : t.HasPlainYear) :
    (t.date.month < tenTo 2 ∧ t.date.day < tenTo 2) ∧
      t.civil.hour < tenTo 2 ∧ t.civil.minute < tenTo 2 ∧ t.civil.second < tenTo 2 := by
  have valid := isValid_date plain
  simp only [Date.isValid, Bool.and_eq_true, decide_eq_true_eq] at valid
  obtain ⟨⟨⟨-, month⟩, -⟩, day⟩ := valid
  have short := daysInMonth_le t.date.year t.date.month
  have carry : t.nanos / Instant.nanosPerSecond < 2 :=
    Nat.div_lt_of_lt_mul (by rw [Nat.mul_comm]; exact regular.short)
  have two : tenTo 2 = 100 := rfl
  simp only [Instant.civil, Instant.secondsPerDay, two]
  omega

theorem rfc3339?_chars {t : Instant} (regular : t.IsRegular) (plain : t.HasPlainYear) :
    rfc3339? t.chars = some t := by
  obtain ⟨⟨month, day⟩, hour, minute, second⟩ := civil_lt regular plain
  have year : t.date.year.toNat < tenTo 4 :=
    (Int.toNat_lt plain.1).mpr (Int.lt_of_le_of_lt plain.2 (by decide))
  have nanos : t.civil.nanos < Instant.nanosPerSecond := Nat.mod_lt _ (by decide)
  have clock : (⟨⟨t.date.year.toNat, t.date.month, t.date.day⟩, t.civil.hour, t.civil.minute,
      t.civil.second, t.civil.nanos⟩ : Civil) = t.civil := by
    rw [Int.toNat_of_nonneg plain.1]
    rfl
  rw [chars_eq plain]
  simp only [rfc3339?, exactly_padded year, exactly_padded month, exactly_padded day,
    exactly_padded hour, exactly_padded minute, exactly_padded second, literal_cons,
    fraction_fractionText nanos, Option.bind_eq_bind, Option.bind_some]
  have mark : isDateTimeMark 'T' = true := rfl
  have utc : zone ['Z'] = some 0 := rfl
  simp only [mark, utc, clock, instant?_civil regular plain, if_true, Option.bind_some]

/-! ### Whole timestamps -/

theorem trimRight_chars (t : Instant) : Text.trimRight t.chars = t.chars := by
  rw [Instant.chars]
  exact Text.trimRight_append (by simp) (by simp; rfl) _

/-- Written timestamps have no white space around them. -/
theorem trim_chars {t : Instant} (plain : t.HasPlainYear) : Text.trim t.chars = t.chars := by
  have left : Text.trimLeft t.chars = t.chars := by
    rw [chars_eq plain]
    exact (Digits.padded 4 t.date.year.toNat).trimLeft_append _
  rw [Text.trim, left, trimRight_chars]

theorem ofJson?_toJson {t : Instant} (regular : t.IsRegular) (plain : t.HasPlainYear) :
    Instant.ofJson? t.toJson = some t := by
  rw [Instant.toJson, Instant.ofJson?, Instant.text, String.toList_ofList, ofText?,
    trim_chars plain, rfc3339?_chars regular plain]
  rfl

/-! ### What is read is regular -/

theorem foldl_digits_lt (digits : List Char) (all : ∀ c ∈ digits, c.isDigit = true) (n : Nat) :
    digits.foldl (fun n c => n * 10 + digitValue c) n < (n + 1) * tenTo digits.length := by
  induction digits generalizing n with
  | nil => simp
  | cons c digits ih =>
    obtain ⟨digit, all⟩ := List.forall_mem_cons.mp all
    have value := digitValue_lt digit
    calc (c :: digits).foldl (fun n c => n * 10 + digitValue c) n
        < (n * 10 + digitValue c + 1) * tenTo digits.length := ih all _
      _ ≤ ((n + 1) * 10) * tenTo digits.length := Nat.mul_le_mul_right _ (by omega)
      _ = (n + 1) * tenTo (c :: digits).length := by
        rw [List.length_cons, Number.tenTo_succ, Nat.mul_assoc, Nat.mul_comm 10]

theorem nanosOf_lt {digits : List Char} (all : ∀ c ∈ digits, c.isDigit = true) :
    nanosOf digits < Instant.nanosPerSecond := by
  have kept : ∀ c ∈ digits.take 9, c.isDigit = true := fun c mem => all c (List.mem_of_mem_take mem)
  have less := foldl_digits_lt (digits.take 9) kept 0
  have short : (digits.take 9).length ≤ 9 := List.length_take_le 9 digits
  rw [Nat.zero_add, Nat.one_mul] at less
  calc nanosOf digits
      < tenTo (digits.take 9).length * tenTo (9 - (digits.take 9).length) :=
        Nat.mul_lt_mul_of_pos_right less (Number.tenTo_pos _)
    _ = tenTo 9 := by rw [← Number.tenTo_add, Nat.add_sub_cancel' short]

theorem fraction_lt {nanos : Nat} (read : fraction cs = some (nanos, rest)) :
    nanos < Instant.nanosPerSecond := by
  unfold fraction at read
  split at read
  · simp only at read
    split at read
    · cases read
    · cases read
      exact nanosOf_lt (List.all_eq_true.mp List.all_takeWhile)
  · cases read
    decide

theorem zone_mod {offset : Int} (read : zone cs = some offset) : offset % 60 = 0 := by
  unfold zone at read
  split at read
  · cases read; rfl
  · cases read; rfl
  · obtain ⟨⟨hours, _⟩, -, read⟩ := Option.bind_eq_some_iff.mp read
    obtain ⟨_, -, read⟩ := Option.bind_eq_some_iff.mp read
    obtain ⟨⟨minutes, _⟩, -, read⟩ := Option.bind_eq_some_iff.mp read
    simp only at read
    split at read
    · split at read
      · cases read
        omega
      · split at read
        · cases read
          omega
        · cases read
    · cases read
  · cases read

theorem isRegular_of_instant? {civil : Civil} {offset : Int} {t : Instant}
    (short : civil.nanos < Instant.nanosPerSecond) (minutes : offset % 60 = 0)
    (read : civil.instant? offset = some t) : t.IsRegular := by
  unfold Instant.nanosPerSecond at short
  unfold Civil.instant? at read
  split at read
  · cases read
    by_cases leap : civil.second = 60
    · constructor
      · simp only [if_pos leap, Instant.nanosPerSecond]
        omega
      · simp only [Instant.secondsPerDay, leap, if_true]
        omega
    · constructor
      · simp only [if_neg leap, Instant.nanosPerSecond]
        omega
      · simp only [if_neg leap, Instant.nanosPerSecond]
        omega
  · cases read

theorem isRegular_of_rfc3339? {t : Instant} (read : rfc3339? cs = some t) : t.IsRegular := by
  unfold rfc3339? at read
  obtain ⟨⟨year, _⟩, -, read⟩ := Option.bind_eq_some_iff.mp read
  obtain ⟨_, -, read⟩ := Option.bind_eq_some_iff.mp read
  obtain ⟨⟨month, _⟩, -, read⟩ := Option.bind_eq_some_iff.mp read
  obtain ⟨_, -, read⟩ := Option.bind_eq_some_iff.mp read
  obtain ⟨⟨day, _⟩, -, read⟩ := Option.bind_eq_some_iff.mp read
  simp only at read
  split at read
  · split at read
    · obtain ⟨⟨hour, _⟩, -, read⟩ := Option.bind_eq_some_iff.mp read
      obtain ⟨_, -, read⟩ := Option.bind_eq_some_iff.mp read
      obtain ⟨⟨minute, _⟩, -, read⟩ := Option.bind_eq_some_iff.mp read
      obtain ⟨_, -, read⟩ := Option.bind_eq_some_iff.mp read
      obtain ⟨⟨second, _⟩, -, read⟩ := Option.bind_eq_some_iff.mp read
      obtain ⟨⟨nanos, _⟩, fraction, read⟩ := Option.bind_eq_some_iff.mp read
      obtain ⟨offset, zone, read⟩ := Option.bind_eq_some_iff.mp read
      exact isRegular_of_instant? (fraction_lt fraction) (zone_mod zone) read
    · cases read
  · cases read

/-- Without an offset a text ends with its fraction, and no `Z` is passed over before that. -/
theorem exists_civil_of_naive? {separator : Separator} {t : Instant}
    (read : naive? separator cs = some t) :
    ∃ (civil : Civil) (fractionText : List Char), fraction fractionText = some (civil.nanos, []) ∧
      civil.instant? 0 = some t ∧ ('Z' ∈ cs → 'Z' ∈ fractionText) := by
  unfold naive? at read
  obtain ⟨⟨year, _⟩, years, read⟩ := Option.bind_eq_some_iff.mp read
  obtain ⟨_, yearEnd, read⟩ := Option.bind_eq_some_iff.mp read
  obtain ⟨⟨month, _⟩, months, read⟩ := Option.bind_eq_some_iff.mp read
  obtain ⟨_, monthEnd, read⟩ := Option.bind_eq_some_iff.mp read
  obtain ⟨⟨day, _⟩, days, read⟩ := Option.bind_eq_some_iff.mp read
  obtain ⟨_, dateEnd, read⟩ := Option.bind_eq_some_iff.mp read
  obtain ⟨⟨hour, _⟩, hours, read⟩ := Option.bind_eq_some_iff.mp read
  obtain ⟨_, hourEnd, read⟩ := Option.bind_eq_some_iff.mp read
  obtain ⟨⟨minute, _⟩, minutes, read⟩ := Option.bind_eq_some_iff.mp read
  obtain ⟨_, minuteEnd, read⟩ := Option.bind_eq_some_iff.mp read
  obtain ⟨⟨second, fractionText⟩, seconds, read⟩ := Option.bind_eq_some_iff.mp read
  obtain ⟨⟨nanos, left⟩, nanoseconds, read⟩ := Option.bind_eq_some_iff.mp read
  simp only at read
  split at read
  · next consumed =>
    rw [List.isEmpty_iff.mp consumed] at nanoseconds
    refine ⟨_, fractionText, nanoseconds, read, fun mem => ?_⟩
    replace mem := mem_of_literal yearEnd (by decide) (mem_of_looseYear years mem)
    replace mem := mem_of_literal monthEnd (by decide) (mem_of_loosePair months mem)
    replace mem := mem_of_skip dateEnd (mem_of_loosePair days mem)
    replace mem := mem_of_literal hourEnd (by decide) (mem_of_loosePair hours mem)
    replace mem := mem_of_literal minuteEnd (by decide) (mem_of_loosePair minutes mem)
    exact mem_of_loosePair seconds mem
  · cases read

theorem isRegular_of_naive? {separator : Separator} {t : Instant}
    (read : naive? separator cs = some t) : t.IsRegular := by
  obtain ⟨civil, fractionText, fraction, made, -⟩ := exists_civil_of_naive? read
  exact isRegular_of_instant? (fraction_lt fraction) rfl made

theorem isRegular_of_lt {t : Instant} (short : t.nanos < Instant.nanosPerSecond) : t.IsRegular := by
  refine ⟨by omega, fun long => ?_⟩
  exact absurd short (Nat.not_lt.mpr long)

theorem isRegular_of_ofEpoch? {count : Int64} {t : Instant}
    (read : Instant.ofEpoch? count = some t) : t.IsRegular := by
  unfold Instant.ofEpoch? Instant.ofSized? at read
  split at read
  · unfold Instant.ofMillis? at read
    split at read
    · cases read
      refine isRegular_of_lt ?_
      simp only [Instant.nanosPerSecond]
      omega
    · cases read
  · unfold Instant.ofSeconds? at read
    split at read
    · cases read
      exact isRegular_of_lt (by decide : 0 < Instant.nanosPerSecond)
    · cases read

/-- Whatever is read as a timestamp is regular. -/
theorem isRegular_of_ofJson? {json : Json} {t : Instant} (read : Instant.ofJson? json = some t) :
    t.IsRegular := by
  unfold Instant.ofJson? at read
  split at read
  · simp only [ofText?, Option.orElse_eq_orElse, Option.orElse_eq_or, Option.or_eq_some_iff] at read
    rcases read with read | ⟨-, read | ⟨-, read⟩⟩
    · exact isRegular_of_rfc3339? read
    · exact isRegular_of_naive? read
    · exact isRegular_of_naive? read
  · exact isRegular_of_ofEpoch? read
  · cases read

end Liveboard.Time
