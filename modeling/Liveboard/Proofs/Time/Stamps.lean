/-
  Liveboard/Proofs/Time/Stamps.lean
  =================================
  **The forms of a timestamp agree.**

  A date and a time of fixed width (`Stamp`) may stand alone, with `T` or a space between them, or
  have `Z` or an offset behind them.  One grammar wants the offset, another takes none and is
  tolerant in widths and white space; on such texts they find the same numbers
  (`rfc3339?_append`, `naive?_append`), hence the same instant, apart from the offset
  (`stamps_read_alike`).  It is the one whose clock shows what the text says, by the calendar
  (`civil_of_instant?`).
-/
import Liveboard.Proofs.Time.Timestamp

namespace Liveboard.Time

variable {rest : List Char}

/-! ### Date and time in fixed width -/

/-- A text `dddd-dd-ddTdd:dd:dd`, perhaps with a point and more digits behind it. -/
structure Stamp where
  year : Digits 4
  month : Digits 2
  day : Digits 2
  hour : Digits 2
  minute : Digits 2
  second : Digits 2
  /-- The digits after the point; without digits there is no point. -/
  fraction : List Char
  areDigits : ∀ c ∈ fraction, c.isDigit = true

/-- What stands between date and time for a separator. -/
def Separator.char : Separator → Char
  | .mark => 'T'
  | .blanks => ' '

namespace Stamp

def fractionChars (stamp : Stamp) : List Char :=
  if stamp.fraction.isEmpty then [] else '.' :: stamp.fraction

/-- The text, with the given character between date and time. -/
def chars (stamp : Stamp) (mark : Char) : List Char :=
  stamp.year.chars ++ '-' :: (stamp.month.chars ++ '-' :: (stamp.day.chars ++ mark ::
    (stamp.hour.chars ++ ':' :: (stamp.minute.chars ++ ':' :: (stamp.second.chars ++
      stamp.fractionChars)))))

/-- The date and the time of day that the text says, whether or not there are such. -/
def civil (stamp : Stamp) : Civil where
  date := ⟨stamp.year.value, stamp.month.value, stamp.day.value⟩
  hour := stamp.hour.value
  minute := stamp.minute.value
  second := stamp.second.value
  nanos := nanosOf stamp.fraction

variable (stamp : Stamp)

theorem chars_append (mark : Char) (rest : List Char) :
    stamp.chars mark ++ rest =
      stamp.year.chars ++ '-' :: (stamp.month.chars ++ '-' :: (stamp.day.chars ++ mark ::
        (stamp.hour.chars ++ ':' :: (stamp.minute.chars ++ ':' :: (stamp.second.chars ++
          (stamp.fractionChars ++ rest)))))) := by
  simp [chars]

theorem fraction_append (ends : EndsFraction rest) :
    Time.fraction (stamp.fractionChars ++ rest) = some (nanosOf stamp.fraction, rest) := by
  rw [fractionChars]
  by_cases absent : stamp.fraction.isEmpty = true
  · rw [if_pos absent, List.isEmpty_iff.mp absent, List.nil_append, fraction_of_ends ends]
    rfl
  · rw [if_neg absent]
    exact fraction_point (by simpa using absent) stamp.areDigits ends

/-! ### Either grammar -/

theorem rfc3339?_append {mark : Char} (known : isDateTimeMark mark = true)
    (ends : EndsFraction rest) :
    rfc3339? (stamp.chars mark ++ rest) = (zone rest).bind stamp.civil.instant? := by
  rw [chars_append]
  simp only [rfc3339?, Digits.exactly_append, literal_cons, known, stamp.fraction_append ends,
    Option.bind_eq_bind, Option.bind_some, if_true]
  rfl

theorem skip_char (separator : Separator) (hour : Digits 2) (rest : List Char) :
    separator.skip (separator.char :: (hour.chars ++ rest)) = some (hour.chars ++ rest) := by
  cases separator with
  | mark => exact literal_cons 'T' _
  | blanks => exact congrArg some (hour.trimLeft_append rest)

theorem naive?_append (separator : Separator) (ends : EndsFraction rest) :
    naive? separator (stamp.chars separator.char ++ rest) =
      if rest.isEmpty then stamp.civil.instant? 0 else none := by
  rw [chars_append]
  simp only [naive?, Digits.looseYear_append, Digits.loosePair_append, literal_cons, skip_char,
    stamp.fraction_append ends, Option.bind_eq_bind, Option.bind_some]
  rfl

/-- No separator passes over what stands for the other one. -/
theorem naive?_of_ne {separator other : Separator} (ne : separator ≠ other) (rest : List Char) :
    naive? separator (stamp.chars other.char ++ rest) = none := by
  rw [chars_append]
  simp only [naive?, Digits.looseYear_append, Digits.loosePair_append, literal_cons,
    Option.bind_eq_bind, Option.bind_some]
  cases separator <;> cases other
  · exact absurd rfl ne
  · rfl
  · rfl
  · exact absurd rfl ne

theorem isBlank_fractionChars : ∀ c ∈ stamp.fractionChars, Text.isBlank c = false := by
  intro c mem
  rw [fractionChars] at mem
  split at mem
  · cases mem
  · rcases List.mem_cons.mp mem with rfl | digit
    · rfl
    · exact isBlank_of_isDigit (stamp.areDigits c digit)

theorem trim_append (mark : Char) (solid : ∀ c ∈ rest, Text.isBlank c = false) :
    Text.trim (stamp.chars mark ++ rest) = stamp.chars mark ++ rest := by
  have left : Text.trimLeft (stamp.chars mark ++ rest) = stamp.chars mark ++ rest := by
    rw [chars_append, stamp.year.trimLeft_append]
  have tail : ∀ c ∈ stamp.second.chars ++ (stamp.fractionChars ++ rest),
      Text.isBlank c = false := by
    intro c mem
    rcases List.mem_append.mp mem with digit | mem
    · exact isBlank_of_isDigit (stamp.second.areDigits c digit)
    · rcases List.mem_append.mp mem with inFraction | inRest
      · exact stamp.isBlank_fractionChars c inFraction
      · exact solid c inRest
  obtain ⟨c, cs, some', -⟩ := stamp.second.exists_cons (stamp.fractionChars ++ rest)
  have split : stamp.chars mark ++ rest =
      (stamp.year.chars ++ '-' :: (stamp.month.chars ++ '-' :: (stamp.day.chars ++ mark ::
        (stamp.hour.chars ++ ':' :: (stamp.minute.chars ++ [':']))))) ++
      (stamp.second.chars ++ (stamp.fractionChars ++ rest)) := by
    simp [chars]
  have right : Text.trimRight (stamp.chars mark ++ rest) = stamp.chars mark ++ rest := by
    rw [split]
    exact Text.trimRight_append (by rw [some']; exact List.cons_ne_nil c cs) tail _
  rw [Text.trim, left, right]

/-- What comes of a date and a time with something behind them: without it they are UTC. -/
theorem ofText?_append (separator : Separator) (ends : EndsFraction rest)
    (solid : ∀ c ∈ rest, Text.isBlank c = false) :
    ofText? (stamp.chars separator.char ++ rest) =
      if rest.isEmpty then stamp.civil.instant? 0 else (zone rest).bind stamp.civil.instant? := by
  have known : isDateTimeMark separator.char = true := by cases separator <;> rfl
  have reading : ofText? (stamp.chars separator.char ++ rest) =
      ((zone rest).bind stamp.civil.instant?).or
        (if rest.isEmpty then stamp.civil.instant? 0 else none) := by
    rw [ofText?, stamp.trim_append _ solid, stamp.rfc3339?_append known ends]
    cases separator with
    | mark =>
      rw [stamp.naive?_append .mark ends, stamp.naive?_of_ne (by simp)]
      simp
    | blanks =>
      rw [stamp.naive?_append .blanks ends, stamp.naive?_of_ne (by simp)]
      simp
  rw [reading]
  by_cases empty : rest.isEmpty = true
  · rw [if_pos empty, if_pos empty, List.isEmpty_iff.mp empty]
    rfl
  · rw [if_neg empty, if_neg empty, Option.or_none]

end Stamp

/-! ### Offsets from UTC -/

/-- A sign and `dd:dd`, less than a day. -/
structure Offset where
  sign : Char
  isSign : sign = '+' ∨ isMinus sign = true
  hours : Digits 2
  minutes : Digits 2
  hours_lt : hours.value < 24
  minutes_lt : minutes.value < 60

namespace Offset

variable (offset : Offset)

def chars : List Char := offset.sign :: (offset.hours.chars ++ ':' :: (offset.minutes.chars ++ []))

/-- How far clocks are ahead of UTC. -/
def seconds : Int :=
  let size : Int := (offset.hours.value * 3600 + offset.minutes.value * 60 : Nat)
  if offset.sign = '+' then size else -size

theorem zone_chars : zone offset.chars = some offset.seconds := by
  have hours := offset.hours.exactly_append (':' :: (offset.minutes.chars ++ []))
  obtain ⟨c, cs, more, -⟩ := offset.hours.exists_cons (':' :: (offset.minutes.chars ++ []))
  rw [more] at hours
  rw [chars, more]
  unfold zone
  split
  · next utc =>
    injection utc with _ alone
    cases alone
  · next utc =>
    injection utc with _ alone
    cases alone
  · next start =>
    cases start
    simp only [hours, literal_cons, offset.minutes.exactly_append, Option.bind_eq_bind,
      Option.bind_some, List.isEmpty_nil, offset.hours_lt, offset.minutes_lt, decide_true,
      Bool.and_self, if_true]
    rw [seconds]
    by_cases plus : offset.sign = '+'
    · rw [if_pos plus, if_pos plus]
    · rw [if_neg plus, if_neg plus, if_pos (offset.isSign.resolve_left plus)]
  · next start => cases start

theorem sign_cases : offset.sign = '+' ∨ offset.sign = '-' ∨ offset.sign = '\u2212' := by
  refine offset.isSign.imp_right fun minus => ?_
  simpa [isMinus] using minus

theorem endsFraction : EndsFraction offset.chars := by
  rw [chars]
  rcases offset.sign_cases with sign | sign | sign <;> rw [sign] <;>
    exact endsFraction_cons (by decide) (by decide) _

theorem isBlank_chars : ∀ c ∈ offset.chars, Text.isBlank c = false := by
  intro c mem
  rcases List.mem_cons.mp mem with rfl | mem
  · rcases offset.sign_cases with sign | sign | sign <;> rw [sign] <;> rfl
  · rcases List.mem_append.mp mem with hour | mem
    · exact isBlank_of_isDigit (offset.hours.areDigits c hour)
    · rcases List.mem_cons.mp mem with rfl | mem
      · rfl
      · rw [List.append_nil] at mem
        exact isBlank_of_isDigit (offset.minutes.areDigits c mem)

end Offset

/-! ### Instants -/

/-- The instant so many seconds before. -/
def Instant.earlier (t : Instant) (by' : Int) : Instant := ⟨t.seconds - by', t.nanos⟩

/-- Clocks ahead of UTC show an instant that is earlier by as much. -/
theorem Civil.instant?_eq_map (civil : Civil) (offset : Int) :
    civil.instant? offset = (civil.instant? 0).map (·.earlier offset) := by
  unfold Civil.instant?
  split
  · simp [Instant.earlier]
  · rfl

/-- The clock of an instant that is so far into a day. -/
theorem civil_of_day {days : Int} {ofDay nanos : Nat} (inDay : ofDay < 86400) :
    (Instant.mk (days * Instant.secondsPerDay + ofDay - 0) nanos).civil =
      ⟨Date.ofDays days, ofDay / 3600, ofDay / 60 % 60,
        ofDay % 60 + nanos / Instant.nanosPerSecond, nanos % Instant.nanosPerSecond⟩ := by
  have day : (days * Instant.secondsPerDay + ofDay - 0) / Instant.secondsPerDay = days := by
    unfold Instant.secondsPerDay
    omega
  have clock : ((days * Instant.secondsPerDay + ofDay - 0) % Instant.secondsPerDay).toNat =
      ofDay := by
    unfold Instant.secondsPerDay
    omega
  rw [Instant.civil, clock, Instant.date, day]

/-- The clock of an instant shows what the instant was made from. -/
theorem civil_of_instant? {civil : Civil} {t : Instant}
    (short : civil.nanos < Instant.nanosPerSecond) (made : civil.instant? 0 = some t) :
    t.civil = civil := by
  obtain ⟨date, hour, minute, second, nanos⟩ := civil
  unfold Instant.nanosPerSecond at short
  rw [Civil.instant?] at made
  dsimp only at made short
  split at made
  · next there =>
    simp only [Bool.and_eq_true, decide_eq_true_eq] at there
    obtain ⟨⟨⟨valid, hours⟩, minutes⟩, seconds⟩ := there
    cases made
    rw [civil_of_day (by split <;> omega), Date.ofDays_toDays valid]
    unfold Instant.nanosPerSecond
    by_cases leap : second = 60
    · simp only [leap, if_true, Civil.mk.injEq, true_and]
      omega
    · simp only [leap, if_false, Civil.mk.injEq, true_and]
      omega
  · cases made

/-! ### All forms -/

/-- A date and a time read the same alone, with a space for the `T`, and with `Z` behind them;
    an offset behind them shifts what is read.  What is read is the instant whose clock shows
    them, and white space around a text never counts. -/
theorem stamps_read_alike (stamp : Stamp) :
    ofText? (stamp.chars 'T') = stamp.civil.instant? 0 ∧
    (∀ t, ofText? (stamp.chars 'T') = some t → t.civil = stamp.civil) ∧
    ofText? (stamp.chars 'T' ++ ['Z']) = ofText? (stamp.chars 'T') ∧
    ofText? (stamp.chars ' ') = ofText? (stamp.chars 'T') ∧
    (∀ offset : Offset,
      ofText? (stamp.chars 'T' ++ offset.chars) =
        (ofText? (stamp.chars 'T')).map (·.earlier offset.seconds) ∧
      (ofText? (stamp.chars 'T' ++ offset.chars) = none ↔ ofText? (stamp.chars 'T') = none)) ∧
    ∀ text before after : List Char, (∀ c ∈ before, Text.isBlank c = true) →
      (∀ c ∈ after, Text.isBlank c = true) → ofText? (before ++ text ++ after) = ofText? text := by
  have alone : ∀ separator : Separator,
      ofText? (stamp.chars separator.char) = stamp.civil.instant? 0 := by
    intro separator
    have whole := stamp.ofText?_append separator endsFraction_nil (by simp)
    rwa [List.append_nil] at whole
  have marked := alone .mark
  have utc : ofText? (stamp.chars 'T' ++ ['Z']) = stamp.civil.instant? 0 :=
    stamp.ofText?_append .mark (endsFraction_cons (by decide) (by decide) []) (by simp; rfl)
  have shifted : ∀ offset : Offset, ofText? (stamp.chars 'T' ++ offset.chars) =
      (ofText? (stamp.chars 'T')).map (·.earlier offset.seconds) := by
    intro offset
    have behind := stamp.ofText?_append .mark offset.endsFraction offset.isBlank_chars
    rw [offset.zone_chars, if_neg (by simp [Offset.chars]), Option.bind_some,
      Civil.instant?_eq_map, ← marked] at behind
    exact behind
  refine ⟨marked, fun t read => ?_, utc.trans marked.symm, (alone .blanks).trans marked.symm,
    fun offset => ⟨shifted offset, ?_⟩, fun text before after left right => ?_⟩
  · exact civil_of_instant? (nanosOf_lt stamp.areDigits) (marked.symm.trans read)
  · rw [shifted offset, Option.map_eq_none_iff]
  · rw [ofText?, ofText?, Text.trim_blank left right]

/-- A leap second on a leap day: `2024-02-29T23:59:60.5`. -/
def leapDay : Stamp :=
  ⟨.padded 4 2024, .padded 2 2, .padded 2 29, .padded 2 23, .padded 2 59, .padded 2 60, ['5'],
    List.forall_mem_singleton.mpr rfl⟩

/-- The offset `-00:30`. -/
def halfBehind : Offset where
  sign := '-'
  isSign := .inr (by decide)
  hours := .padded 2 0
  minutes := .padded 2 30
  hours_lt := by decide
  minutes_lt := by decide

/-- Half an hour behind UTC the leap second falls on the first of March. -/
theorem leapDay_reads_alike :
    "2024-02-29T23:59:60.5".toList = leapDay.chars 'T' ∧ "-00:30".toList = halfBehind.chars ∧
      ∃ t, ofText? (leapDay.chars 'T') = some t ∧ t.civil = leapDay.civil ∧
        ofText? (leapDay.chars 'T' ++ halfBehind.chars) = some (t.earlier (-1800)) ∧
        (t.earlier (-1800)).civil.date = ⟨2024, 3, 1⟩ ∧
        ofText? (['\t'] ++ leapDay.chars ' ' ++ ['\u3000']) = some t := by
  obtain ⟨alone, shown, -, spaced, offset, blank⟩ := stamps_read_alike leapDay
  have read : ofText? (leapDay.chars 'T') = some ⟨1709251199, 1500000000⟩ := by
    rw [alone]
    rfl
  refine ⟨by decide, by decide, _, read, shown _ read, ?_, by decide, ?_⟩
  · rw [(offset halfBehind).1, read]
    rfl
  · rw [blank _ _ _ (List.forall_mem_singleton.mpr rfl) (List.forall_mem_singleton.mpr rfl),
      spaced, read]

end Liveboard.Time
