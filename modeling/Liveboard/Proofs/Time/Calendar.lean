/-
  Liveboard/Proofs/Time/Calendar.lean
  ===================================
  **Every day number is the number of one date.**

  The date of a day number is one that the calendar has, and its day number is the one it was
  made from (`toDays_ofDays`, `isValid_ofDays`).  A date that the calendar has is the date of
  its day number (`ofDays_toDays`).

  An era is four centuries; each of them has 24 cycles of four years and one more that lacks
  its leap day, except in the last century.  Splitting the days of an era accordingly turns the
  closed formula for the year into linear arithmetic.
-/
import Liveboard.Time.Calendar

namespace Liveboard.Time.Date

/-! ### The year within an era -/

/-- Years that are over on that day of an era. -/
def yearOfEra (dayOfEra : Int) : Int :=
  (dayOfEra - dayOfEra / 1460 + dayOfEra / 36524 - dayOfEra / 146096) / 365

/-- Days that are over in the year of that day of an era. -/
def dayOfYear (dayOfEra : Int) : Int :=
  dayOfEra - (365 * yearOfEra dayOfEra + yearOfEra dayOfEra / 4 - yearOfEra dayOfEra / 100)

/-- A day of an era as century, four-year cycle, year of the cycle and day of that year.  Only
    the last year of a cycle has a leap day, the last cycle of a century only in the last. -/
structure Splits (dayOfEra century cycle year day : Int) : Prop where
  centuries : 0 ≤ century ∧ century ≤ 3
  cycles : 0 ≤ cycle ∧ cycle ≤ 24
  years : 0 ≤ year ∧ year ≤ 3
  days : 0 ≤ day ∧ day ≤ 365
  leap : day = 365 → year = 3 ∧ (cycle = 24 → century = 3)
  sum : dayOfEra = 36524 * century + 1461 * cycle + 365 * year + day

variable {dayOfEra century cycle year day : Int}

theorem exists_splits (nonneg : 0 ≤ dayOfEra) (short : dayOfEra < 146097) :
    ∃ century cycle year day, Splits dayOfEra century cycle year day := by
  -- the last day of the era is the 36525th of its century
  obtain ⟨century, c⟩ : ∃ century, century = dayOfEra / 36524 - dayOfEra / 146096 := ⟨_, rfl⟩
  obtain ⟨ofCentury, r⟩ : ∃ ofCentury, ofCentury = dayOfEra - 36524 * century := ⟨_, rfl⟩
  have centuries : 0 ≤ century ∧ century ≤ 3 := by omega
  have inside : 0 ≤ ofCentury ∧ ofCentury ≤ 36524 ∧ (ofCentury = 36524 → century = 3) := by omega
  -- and the last day of a cycle the 366th of its year
  obtain ⟨ofCycle, s⟩ : ∃ ofCycle, ofCycle = ofCentury % 1461 := ⟨_, rfl⟩
  obtain ⟨year, y⟩ : ∃ year, year = ofCycle / 365 - ofCycle / 1460 := ⟨_, rfl⟩
  refine ⟨century, ofCentury / 1461, year, ofCycle - 365 * year, centuries, ?_, ?_, ?_, ?_, ?_⟩
  · omega
  · omega
  · omega
  · omega
  · omega

theorem century_of_dayOfEra {ofCentury : Int} (range : 0 ≤ century ∧ century ≤ 3)
    (inside : 0 ≤ ofCentury ∧ ofCentury ≤ 36524) (last : ofCentury = 36524 → century = 3) :
    (36524 * century + ofCentury) / 36524 - (36524 * century + ofCentury) / 146096 = century := by
  by_cases full : ofCentury = 36524
  · obtain rfl := last full
    subst full
    rfl
  · have quotient : (36524 * century + ofCentury) / 36524 = century := by omega
    have notLast : (36524 * century + ofCentury) / 146096 = 0 := by omega
    omega

namespace Splits

/-- The days by which the cycles have pushed the year forward, and one more near its end. -/
theorem shift_range (splits : Splits dayOfEra century cycle year day) :
    0 ≤ day - (24 * century + cycle + 365 * year + day) / 1460 ∧
      day - (24 * century + cycle + 365 * year + day) / 1460 < 365 := by
  obtain ⟨centuries, cycles, years, days, leap, -⟩ := splits
  have leap' : day = 365 → year = 3 := fun last => (leap last).1
  clear leap
  omega

theorem yearOfEra_eq (splits : Splits dayOfEra century cycle year day) :
    yearOfEra dayOfEra = 100 * century + 4 * cycle + year := by
  have shift := splits.shift_range
  obtain ⟨centuries, cycles, years, days, leap, sum⟩ := splits
  have ofCentury : dayOfEra / 36524 - dayOfEra / 146096 = century := by
    have quotients : _ = century := century_of_dayOfEra centuries
      (by omega : 0 ≤ 1461 * cycle + 365 * year + day ∧ _) (by omega)
    rwa [← Int.add_assoc, ← Int.add_assoc, ← sum] at quotients
  have ofCycle : dayOfEra / 1460 =
      25 * century + cycle + (24 * century + cycle + 365 * year + day) / 1460 := by
    omega
  generalize (24 * century + cycle + 365 * year + day) / 1460 = pushed at shift ofCycle
  rw [yearOfEra, ofCycle]
  omega

theorem dayOfYear_eq (splits : Splits dayOfEra century cycle year day) :
    dayOfYear dayOfEra = day := by
  obtain ⟨centuries, cycles, years, days, leap, sum⟩ := id splits
  rw [dayOfYear, splits.yearOfEra_eq]
  omega

end Splits

theorem yearOfEra_range (nonneg : 0 ≤ dayOfEra) (short : dayOfEra < 146097) :
    0 ≤ yearOfEra dayOfEra ∧ yearOfEra dayOfEra ≤ 399 := by
  obtain ⟨century, cycle, year, day, splits⟩ := exists_splits nonneg short
  obtain ⟨centuries, cycles, years, -⟩ := id splits
  rw [splits.yearOfEra_eq]
  omega

theorem dayOfYear_range (nonneg : 0 ≤ dayOfEra) (short : dayOfEra < 146097) :
    0 ≤ dayOfYear dayOfEra ∧ dayOfYear dayOfEra ≤ 365 := by
  obtain ⟨century, cycle, year, day, splits⟩ := exists_splits nonneg short
  rw [splits.dayOfYear_eq]
  exact splits.days

/-- A year that begins in March has a 366th day if the next one that begins in January has a
    29th of February. -/
theorem isLeapYear_of_dayOfYear (nonneg : 0 ≤ dayOfEra) (short : dayOfEra < 146097)
    (last : dayOfYear dayOfEra = 365) (era : Int) :
    isLeapYear (yearOfEra dayOfEra + era * 400 + 1) = true := by
  obtain ⟨century, cycle, year, day, splits⟩ := exists_splits nonneg short
  rw [splits.dayOfYear_eq] at last
  obtain ⟨lastYear, lastCycle⟩ := splits.leap last
  obtain ⟨centuries, cycles, -⟩ := id splits
  rw [splits.yearOfEra_eq, isLeapYear]
  simp only [Bool.and_eq_true, Bool.or_eq_true, bne_iff_ne, beq_iff_eq]
  omega

/-! ### Dates -/

/-- The date of a day in a year, both counted from March. -/
def ofMarch (year month day : Int) : Date :=
  if month < 10 then ⟨year, (month + 3).toNat, day.toNat⟩
  else ⟨year + 1, (month - 9).toNat, day.toNat⟩

/-- Five months have 153 days, as long as February is the last one. -/
def ofDayOfYear (year dayOfYear : Int) : Date :=
  ofMarch year ((5 * dayOfYear + 2) / 153)
    (dayOfYear - (153 * ((5 * dayOfYear + 2) / 153) + 2) / 5 + 1)

theorem ofDays_eq (days : Int) :
    ofDays days = ofDayOfYear
      (yearOfEra ((days + epochShift) % 146097) + (days + epochShift) / 146097 * 400)
      (dayOfYear ((days + epochShift) % 146097)) := rfl

theorem toDays_ofMarch {month : Int} (months : 0 ≤ month ∧ month ≤ 11) (first : 1 ≤ day) :
    (ofMarch year month day).toDays =
      year / 400 * 146097 + (year % 400 * 365 + year % 400 / 4 - year % 400 / 100 +
        ((153 * month + 2) / 5 + day - 1)) - epochShift := by
  unfold ofMarch
  by_cases early : month < 10
  · rw [if_pos early]
    simp only [toDays]
    have notEarly : ¬ (month + 3).toNat ≤ 2 := by omega
    have back : ((month + 3).toNat : Int) - 3 = month := by omega
    have same : (day.toNat : Int) = day := by omega
    rw [if_neg notEarly, if_neg notEarly, back, same]
  · rw [if_neg early]
    simp only [toDays]
    have turned : (month - 9).toNat ≤ 2 := by omega
    have back : ((month - 9).toNat : Int) + 9 = month := by omega
    have same : (day.toNat : Int) = day := by omega
    rw [if_pos turned, if_pos turned, back, same, Int.add_sub_cancel]

/-- The month of a day, and the day within it. -/
theorem month_range {ofYear : Int} (range : 0 ≤ ofYear ∧ ofYear ≤ 365) :
    (0 ≤ (5 * ofYear + 2) / 153 ∧ (5 * ofYear + 2) / 153 ≤ 11) ∧
      1 ≤ ofYear - (153 * ((5 * ofYear + 2) / 153) + 2) / 5 + 1 := by
  omega

theorem toDays_ofDays (days : Int) : (ofDays days).toDays = days := by
  have nonneg := Int.emod_nonneg (days + epochShift) (by decide : (146097 : Int) ≠ 0)
  have short := Int.emod_lt_of_pos (days + epochShift) (by decide : (0 : Int) < 146097)
  have whole := Int.mul_ediv_add_emod (days + epochShift) 146097
  have years := yearOfEra_range nonneg short
  have ofYear := dayOfYear_range nonneg short
  obtain ⟨months, first⟩ := month_range ofYear
  have split : (days + epochShift) % 146097 = 365 * yearOfEra ((days + epochShift) % 146097) +
      yearOfEra ((days + epochShift) % 146097) / 4 -
      yearOfEra ((days + epochShift) % 146097) / 100 +
      dayOfYear ((days + epochShift) % 146097) := by
    unfold dayOfYear
    omega
  rw [ofDays_eq, ofDayOfYear, toDays_ofMarch months first]
  generalize (days + epochShift) / 146097 = era at *
  generalize dayOfYear ((days + epochShift) % 146097) = ofYear at *
  generalize yearOfEra ((days + epochShift) % 146097) = year at *
  generalize (days + epochShift) % 146097 = ofEra at *
  have back : (year + era * 400) / 400 = era := by omega
  have rest : (year + era * 400) % 400 = year := by omega
  rw [back, rest]
  omega

/-- The day is one of its month. -/
theorem day_ofDayOfYear {year ofYear : Int} (range : 0 ≤ ofYear ∧ ofYear ≤ 365)
    (leap : ofYear = 365 → isLeapYear (year + 1) = true) :
    (1 ≤ (ofDayOfYear year ofYear).month ∧ (ofDayOfYear year ofYear).month ≤ 12) ∧
      1 ≤ (ofDayOfYear year ofYear).day ∧ (ofDayOfYear year ofYear).day ≤
        daysInMonth (ofDayOfYear year ofYear).year (ofDayOfYear year ofYear).month := by
  obtain ⟨months, first⟩ := month_range range
  have from' : 153 * ((5 * ofYear + 2) / 153) ≤ 5 * ofYear + 2 := by omega
  have upTo : 5 * ofYear + 2 < 153 * ((5 * ofYear + 2) / 153) + 153 := by omega
  unfold ofDayOfYear
  generalize (5 * ofYear + 2) / 153 = month at *
  have each : month = 0 ∨ month = 1 ∨ month = 2 ∨ month = 3 ∨ month = 4 ∨ month = 5 ∨ month = 6 ∨
      month = 7 ∨ month = 8 ∨ month = 9 ∨ month = 10 ∨ month = 11 := by
    omega
  rcases each with rfl | rfl | rfl | rfl | rfl | rfl | rfl | rfl | rfl | rfl | rfl | rfl
  case inr.inr.inr.inr.inr.inr.inr.inr.inr.inr.inr =>
    by_cases last : ofYear = 365
    · simp [ofMarch, daysInMonth, leap last]
      omega
    · by_cases leapYear : isLeapYear (year + 1) = true
      · simp [ofMarch, daysInMonth, leapYear]
        omega
      · simp [ofMarch, daysInMonth, leapYear]
        omega
  all_goals
    simp [ofMarch, daysInMonth]
    omega

theorem isValid_ofDays {days : Int}
    (range : leastYear ≤ (ofDays days).year ∧ (ofDays days).year ≤ greatestYear) :
    (ofDays days).isValid = true := by
  have nonneg := Int.emod_nonneg (days + epochShift) (by decide : (146097 : Int) ≠ 0)
  have short := Int.emod_lt_of_pos (days + epochShift) (by decide : (0 : Int) < 146097)
  obtain ⟨months, inMonth⟩ := day_ofDayOfYear (dayOfYear_range nonneg short)
    (fun last => isLeapYear_of_dayOfYear nonneg short last ((days + epochShift) / 146097))
  rw [← ofDays_eq] at months inMonth
  simp [isValid, range, months, inMonth]

/-! ### Day numbers of dates -/

/-- The year that began in the March before the date. -/
def marchYear (date : Date) : Int :=
  if date.month ≤ 2 then date.year - 1 else date.year

/-- Months that are over since that March. -/
def marchMonth (date : Date) : Int :=
  if date.month ≤ 2 then date.month + 9 else date.month - 3

/-- Days that are over since that March. -/
def marchDay (date : Date) : Int := (153 * date.marchMonth + 2) / 5 + date.day - 1

theorem toDays_eq (date : Date) :
    date.toDays + epochShift = date.marchYear / 400 * 146097 +
      (date.marchYear % 400 * 365 + date.marchYear % 400 / 4 - date.marchYear % 400 / 100 +
        date.marchDay) :=
  Int.sub_add_cancel _ _

theorem ofMarch_march {date : Date} (months : 1 ≤ date.month ∧ date.month ≤ 12) :
    ofMarch date.marchYear date.marchMonth date.day = date := by
  obtain ⟨year, month, day⟩ := date
  unfold ofMarch marchYear marchMonth
  simp only at months ⊢
  by_cases turned : month ≤ 2
  · rw [if_pos turned, if_pos turned, if_neg (by omega)]
    simp only [Date.mk.injEq, Int.toNat_natCast, and_true]
    omega
  · rw [if_neg turned, if_neg turned, if_pos (by omega)]
    simp only [Date.mk.injEq, Int.toNat_natCast, and_true, true_and]
    omega

/-- The month and the day are found again in the days since March; only a 29th of February is
    the 366th of them. -/
theorem marchDay_spec {date : Date} (valid : date.isValid = true) :
    (5 * date.marchDay + 2) / 153 = date.marchMonth ∧
      (0 ≤ date.marchDay ∧ date.marchDay ≤ 365) ∧
      (date.marchDay = 365 → isLeapYear (date.marchYear + 1) = true) := by
  obtain ⟨year, month, day⟩ := date
  simp only [isValid, Bool.and_eq_true, decide_eq_true_eq] at valid
  obtain ⟨⟨⟨⟨-, first⟩, last⟩, one⟩, length⟩ := valid
  have each : month = 1 ∨ month = 2 ∨ month = 3 ∨ month = 4 ∨ month = 5 ∨ month = 6 ∨ month = 7 ∨
      month = 8 ∨ month = 9 ∨ month = 10 ∨ month = 11 ∨ month = 12 := by
    omega
  rcases each with rfl | rfl | rfl | rfl | rfl | rfl | rfl | rfl | rfl | rfl | rfl | rfl
  case inr.inl =>
    by_cases leapYear : isLeapYear year = true
    · simp [daysInMonth, leapYear, marchDay, marchMonth, marchYear] at *
      omega
    · simp [daysInMonth, leapYear, marchDay, marchMonth, marchYear] at *
      omega
  all_goals
    simp [daysInMonth, marchDay, marchMonth, marchYear] at *
    omega

/-- The day of an era on which so many days of a year of the era are over. -/
theorem splits_of_year {year ofYear : Int} (years : 0 ≤ year ∧ year ≤ 399)
    (range : 0 ≤ ofYear ∧ ofYear ≤ 365) (leap : ofYear = 365 → isLeapYear (year + 1) = true) :
    Splits (year * 365 + year / 4 - year / 100 + ofYear) (year / 100) (year % 100 / 4) (year % 4)
      ofYear := by
  refine ⟨by omega, by omega, by omega, range, ?_, by omega⟩
  intro last
  have leapYear := leap last
  simp only [isLeapYear, Bool.and_eq_true, Bool.or_eq_true, bne_iff_ne, beq_iff_eq] at leapYear
  omega

theorem isLeapYear_emod (year : Int) :
    isLeapYear (year % 400 + 1) = isLeapYear (year + 1) := by
  have four : (year % 400 + 1) % 4 = (year + 1) % 4 := by omega
  have hundred : (year % 400 + 1) % 100 = (year + 1) % 100 := by omega
  have era : (year % 400 + 1) % 400 = (year + 1) % 400 := by omega
  rw [isLeapYear, isLeapYear, four, hundred, era]

theorem ofDays_toDays {date : Date} (valid : date.isValid = true) :
    ofDays date.toDays = date := by
  obtain ⟨month, range, leap⟩ := marchDay_spec valid
  have months : 1 ≤ date.month ∧ date.month ≤ 12 := by
    simp only [isValid, Bool.and_eq_true, decide_eq_true_eq] at valid
    omega
  have years : 0 ≤ date.marchYear % 400 ∧ date.marchYear % 400 ≤ 399 := by omega
  have splits := splits_of_year years range
    (fun last => by rw [isLeapYear_emod]; exact leap last)
  obtain ⟨inEra, named⟩ : ∃ inEra, inEra = date.marchYear % 400 * 365 + date.marchYear % 400 / 4 -
      date.marchYear % 400 / 100 + date.marchDay := ⟨_, rfl⟩
  rw [← named] at splits
  have short : 0 ≤ inEra ∧ inEra < 146097 := by
    obtain ⟨centuries, cycles, years, days, -, sum⟩ := splits
    omega
  have era : (date.marchYear / 400 * 146097 + inEra) / 146097 = date.marchYear / 400 := by omega
  have rest : (date.marchYear / 400 * 146097 + inEra) % 146097 = inEra := by omega
  have year : 100 * (date.marchYear % 400 / 100) + 4 * (date.marchYear % 400 % 100 / 4) +
      date.marchYear % 400 % 4 + date.marchYear / 400 * 400 = date.marchYear := by omega
  have day : date.marchDay - (153 * date.marchMonth + 2) / 5 + 1 = date.day := by
    rw [marchDay]
    omega
  rw [ofDays_eq, toDays_eq, ← named, era, rest, splits.yearOfEra_eq, splits.dayOfYear_eq, year,
    ofDayOfYear, month, day, ofMarch_march months]

end Liveboard.Time.Date
