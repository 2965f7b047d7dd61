/-
  Liveboard/Proofs/Time/Counts.lean
  =================================
  **Timestamps given as numbers.**

  A number is cut to a signed 64-bit count, and the size of the count decides whether it counts
  seconds or milliseconds.  The size is computed in 64 bits as well.  It is the true one for
  every count but the least, whose size has no 64-bit representation (`toInt_abs_iff`).  There
  a checked build panics (`Instant.read_eq_panic_iff`).  An unchecked build goes on with a size
  that is wrong, which does no harm: that count is far outside the instants there are, in
  seconds and in milliseconds, so that it reads every number by its true size all the same
  (`ofEpoch?_eq`).
-/
import Liveboard.Time.Reading

namespace Liveboard

/-- The number without its fraction. -/
def Numeral.whole : Numeral → Int
  | .integer n => n
  | .double x => x.truncate

namespace Time

theorem toInt_least : Int64.minValue.toInt = -9223372036854775808 := rfl

theorem toInt_greatest : Int64.maxValue.toInt = 9223372036854775807 := rfl

/-! ### Cut to 64 bits -/

/-- The count that a number comes to, cut to 64 bits. -/
def clampedCount (numeral : Numeral) : Int :=
  max Int64.minValue.toInt (min Int64.maxValue.toInt numeral.whole)

theorem toInt_saturate (n : Int) :
    (saturate n).toInt = max Int64.minValue.toInt (min Int64.maxValue.toInt n) := by
  unfold saturate
  split
  · next below =>
    rw [toInt_least, toInt_greatest] at *
    omega
  · split
    · rw [toInt_least, toInt_greatest] at *
      omega
    · rw [toInt_least, toInt_greatest] at *
      rw [Int64.toInt_ofInt_of_le (by omega) (by omega)]
      omega

theorem toInt_countOf (numeral : Numeral) :
    (countOf numeral).toInt = clampedCount numeral := by
  cases numeral with
  | integer n => exact toInt_saturate n
  | double x => exact toInt_saturate x.truncate

theorem countOf_eq_least_iff (numeral : Numeral) :
    countOf numeral = Int64.minValue ↔ numeral.whole ≤ Int64.minValue.toInt := by
  rw [← Int64.toInt_inj, toInt_countOf, clampedCount, toInt_least, toInt_greatest]
  omega

/-! ### Sizes -/

theorem toInt_abs (count : Int64) :
    count.abs.toInt =
      if count = Int64.minValue then Int64.minValue.toInt else count.toInt.natAbs := by
  have least : count.toBitVec = BitVec.intMin 64 ↔ count = Int64.minValue := by
    rw [← Int64.toBitVec_inj, Int64.toBitVec_minValue]
  rw [← Int64.toInt_toBitVec, Int64.toBitVec_abs, BitVec.toInt_abs_eq_natAbs]
  simp only [least, Int64.toInt_toBitVec]
  rfl

theorem toInt_abs_iff (count : Int64) :
    count.abs.toInt = count.toInt.natAbs ↔ count ≠ Int64.minValue := by
  rw [toInt_abs]
  by_cases least : count = Int64.minValue
  · rw [if_pos least, least, toInt_least]
    decide
  · rw [if_neg least]
    exact iff_of_true rfl least

theorem threshold_le_abs_iff (count : Int64) :
    (Instant.millisThreshold ≤ count.abs ↔ 100000000000 ≤ count.toInt.natAbs) ↔
      count ≠ Int64.minValue := by
  have threshold : Instant.millisThreshold.toInt = 100000000000 := rfl
  rw [Int64.le_iff_toInt_le, threshold, toInt_abs]
  by_cases least : count = Int64.minValue
  · rw [if_pos least, least, toInt_least]
    decide
  · rw [if_neg least]
    refine iff_of_true ?_ least
    omega

/-! ### Reading -/

/-- A count since 1970 by its true size: in milliseconds from the threshold on, else in seconds. -/
def Instant.ofCount? (count : Int) : Option Instant :=
  if 100000000000 ≤ count.natAbs then ofMillis? count else ofSeconds? count

theorem ofEpoch?_eq (count : Int64) : Instant.ofEpoch? count = Instant.ofCount? count.toInt := by
  by_cases least : count = Int64.minValue
  · rw [least]
    decide +kernel
  · have same := (threshold_le_abs_iff count).mpr least
    rw [Instant.ofEpoch?, Instant.ofCount?]
    by_cases large : 100000000000 ≤ count.toInt.natAbs
    · rw [if_pos large, Instant.ofSized?, if_pos (same.mpr large)]
    · rw [if_neg large, Instant.ofSized?, if_neg (mt same.mp large)]

theorem ofCount?_eq_none_iff (count : Int) :
    Instant.ofCount? count = none ↔
      Instant.isInRange (if 100000000000 ≤ count.natAbs then count / 1000 else count) = false := by
  rw [Instant.ofCount?]
  by_cases large : 100000000000 ≤ count.natAbs
  · rw [if_pos large, if_pos large, Instant.ofMillis?, ite_eq_right_iff]
    simp
  · rw [if_neg large, if_neg large, Instant.ofSeconds?, ite_eq_right_iff]
    simp

/-! ### Overflow -/

theorem abs_eq_panic_iff (build : Build) (count : Int64) :
    build.abs count = .panic ↔ build = .checked ∧ count = Int64.minValue := by
  cases build with
  | checked =>
    rw [Build.abs]
    split <;> simp [*]
  | unchecked => simp [Build.abs]

theorem abs_of_ne_least (build : Build) {count : Int64} (above : count ≠ Int64.minValue) :
    build.abs count = .value count.abs := by
  cases build with
  | checked => exact if_neg above
  | unchecked => rfl

/-- A build computes a size that is right exactly if there is one. -/
theorem exists_size_iff (build : Build) {count : Int64} {right : Int64 → Prop}
    (known : right count.abs ↔ count ≠ Int64.minValue) :
    (∃ size, build.abs count = .value size ∧ right size) ↔ count ≠ Int64.minValue := by
  constructor
  · rintro ⟨size, computed, holds⟩
    cases build with
    | checked =>
      intro least
      rw [(abs_eq_panic_iff .checked count).mpr ⟨rfl, least⟩] at computed
      cases computed
    | unchecked =>
      cases computed
      exact known.mp holds
  · intro above
    exact ⟨count.abs, abs_of_ne_least build above, known.mpr above⟩

/-- The value is a number whose count has no size in 64 bits. -/
def Overflows (json : Json) : Prop :=
  ∃ numeral, json = .num numeral ∧ numeral.whole ≤ Int64.minValue.toInt

theorem Instant.read_eq_panic_iff (build : Build) (json : Json) :
    Instant.read build json = .panic ↔ build = .checked ∧ Overflows json := by
  cases json with
  | num numeral =>
    have overflows : Overflows (.num numeral) ↔ countOf numeral = Int64.minValue := by
      rw [countOf_eq_least_iff, Overflows]
      simp
    rw [overflows, ← abs_eq_panic_iff, Instant.read, Instant.ofEpoch]
    cases build.abs (countOf numeral) <;> simp
  | _ => simp [Instant.read, Overflows]

theorem Instant.read_of_ne_panic {build : Build} {json : Json}
    (fine : Instant.read build json ≠ .panic) :
    Instant.read build json = .value (Instant.ofJson? json) := by
  cases build with
  | unchecked => exact Instant.read_unchecked json
  | checked =>
    cases json with
    | num numeral =>
      rw [Instant.read, Instant.ofJson?, Instant.ofEpoch] at *
      by_cases least : countOf numeral = Int64.minValue
      · rw [least] at fine
        exact absurd rfl fine
      · rw [abs_of_ne_least _ least]
        rfl
    | _ => rfl

/-- How a build reads a number that is given as a timestamp. -/
structure IsReadBySize (build : Build) (numeral : Numeral) : Prop where
  /-- The number is cut to 64 bits. -/
  count : (countOf numeral).toInt = clampedCount numeral
  /-- A size is computed, and is the true one, exactly if the number is above the least count, -/
  exact : (∃ size, build.abs (countOf numeral) = .value size ∧
    size.toInt = (clampedCount numeral).natAbs) ↔ Int64.minValue.toInt < numeral.whole
  /-- and so it is with a size that compares to the threshold as the true one does. -/
  compares : (∃ size, build.abs (countOf numeral) = .value size ∧
    (Instant.millisThreshold ≤ size ↔ 100000000000 ≤ (clampedCount numeral).natAbs)) ↔
      Int64.minValue.toInt < numeral.whole
  /-- What is read, if anything is, is the instant of the true size; -/
  read : Instant.read build (.num numeral) ≠ .panic →
    Instant.read build (.num numeral) = .value (Instant.ofCount? (clampedCount numeral))
  /-- what lies outside of the instants there are is no timestamp. -/
  outside : Instant.ofCount? (clampedCount numeral) = none ↔ Instant.isInRange
    (if 100000000000 ≤ (clampedCount numeral).natAbs then clampedCount numeral / 1000
      else clampedCount numeral) = false

theorem isReadBySize (build : Build) (numeral : Numeral) : IsReadBySize build numeral := by
  have count := toInt_countOf numeral
  have above : Int64.minValue.toInt < numeral.whole ↔ countOf numeral ≠ Int64.minValue := by
    rw [ne_eq, countOf_eq_least_iff, Int.not_le]
  refine ⟨count, ?_, ?_, ?_, ofCount?_eq_none_iff _⟩
  · rw [above, ← count]
    exact exists_size_iff build (toInt_abs_iff _)
  · rw [above, ← count]
    exact exists_size_iff build (threshold_le_abs_iff _)
  · intro fine
    rw [Instant.read_of_ne_panic fine, Instant.ofJson?, ofEpoch?_eq, count]

end Time
end Liveboard
