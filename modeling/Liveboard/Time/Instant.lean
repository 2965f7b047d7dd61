/-
  Liveboard/Time/Instant.lean
  ===========================
  **Instants and how they are written.**

  An instant is a count of seconds since 1970-01-01T00:00:00Z and nanoseconds on top.
  Nanoseconds of a whole second and more stand for a leap second: it belongs to the
  second before it and is written `:60`.

  `2025-03-01T12:00:00Z`: the fraction is left out when it is zero, else it has the
  fewest of 3, 6 or 9 digits that are exact; a year outside 0 to 9999 has a sign.
-/
import Liveboard.Number.Overflow
import Liveboard.Time.Calendar

namespace Liveboard.Time

structure Instant where
  seconds : Int
  nanos : Nat
deriving DecidableEq, BEq, Repr

namespace Instant

def secondsPerDay : Int := 86400
def nanosPerSecond : Nat := 1000000000

/-- The first second that can be represented. -/
def least : Int := (Date.toDays ⟨leastYear, 1, 1⟩) * secondsPerDay

/-- The last second that can be represented. -/
def greatest : Int := (Date.toDays ⟨greatestYear, 12, 31⟩) * secondsPerDay + (secondsPerDay - 1)

def isInRange (seconds : Int) : Bool := least ≤ seconds && seconds ≤ greatest

def date (t : Instant) : Date := Date.ofDays (t.seconds / secondsPerDay)

/-! ### From a count since 1970 -/

def ofSeconds? (seconds : Int) : Option Instant :=
  if isInRange seconds then some ⟨seconds, 0⟩ else none

def ofMillis? (millis : Int) : Option Instant :=
  if isInRange (millis / 1000) then some ⟨millis / 1000, (millis % 1000).toNat * 1000000⟩ else none

/-- Counts of this size and above are milliseconds. -/
def millisThreshold : Int64 := 100000000000

/-- A count of this size since 1970, in seconds or, from the threshold on, in milliseconds. -/
def ofSized? (size count : Int64) : Option Instant :=
  if millisThreshold ≤ size then ofMillis? count.toInt else ofSeconds? count.toInt

/-- A count since 1970. -/
def ofEpoch (build : Build) (count : Int64) : Computed (Option Instant) :=
  (build.abs count).map fun size => ofSized? size count

/-- A count since 1970, where the size is allowed to wrap around. -/
def ofEpoch? (count : Int64) : Option Instant := ofSized? count.abs count

@[simp] theorem ofEpoch_unchecked (count : Int64) :
    ofEpoch .unchecked count = .value (ofEpoch? count) := rfl

/-! ### Writing -/

/-- The last `width` decimal digits of a number. -/
def padded : Nat → Nat → List Char
  | 0, _ => []
  | width + 1, n => padded width (n / 10) ++ [Nat.digitChar (n % 10)]

@[simp] theorem length_padded (width n : Nat) : (padded width n).length = width := by
  induction width generalizing n with
  | zero => rfl
  | succ width ih => simp [padded, ih]

def yearText (year : Int) : List Char :=
  if 0 ≤ year && year ≤ 9999 then padded 4 year.toNat
  else
    let sign := if year < 0 then '-' else '+'
    let size := year.natAbs
    sign :: (if size < 10000 then padded 4 size else (Nat.repr size).toList)

/-- The fraction of a second, given in nanoseconds. -/
def fractionText (nanos : Nat) : List Char :=
  if nanos = 0 then []
  else if nanos % 1000000 = 0 then '.' :: padded 3 (nanos / 1000000)
  else if nanos % 1000 = 0 then '.' :: padded 6 (nanos / 1000)
  else '.' :: padded 9 nanos

def chars (t : Instant) : List Char :=
  let date := t.date
  let second := (t.seconds % secondsPerDay).toNat
  let leap := t.nanos / nanosPerSecond
  yearText date.year ++ '-' :: padded 2 date.month ++ '-' :: padded 2 date.day ++
    'T' :: padded 2 (second / 3600) ++ ':' :: padded 2 (second / 60 % 60) ++
    ':' :: padded 2 (second % 60 + leap) ++ fractionText (t.nanos % nanosPerSecond) ++ ['Z']

def text (t : Instant) : String := String.ofList t.chars

end Instant
end Liveboard.Time
