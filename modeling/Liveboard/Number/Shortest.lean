/-
  Liveboard/Number/Shortest.lean
  ==============================
  **The fewest decimal digits that read back.**

  The reals that round to a double form an interval around it, ends included
  exactly when the mantissa is even.  For 1, 2, … 17 digits the two neighbours of
  the value on that decimal grid are tested against the interval; the first grid
  with a hit gives the digits, the nearer neighbour first.  Everything is exact
  arithmetic on naturals.
-/
import Liveboard.Number.Binary64

namespace Liveboard.Number

/-- The number `coefficient · 10 ^ exponent`. -/
structure Decimal where
  coefficient : Nat
  exponent : Int
deriving DecidableEq, Repr

/-- A positive rational, the common currency of the comparisons below. -/
structure Ratio where
  num : Nat
  den : Nat
deriving DecidableEq, Repr

def Ratio.le (x y : Ratio) : Bool := x.num * y.den ≤ y.num * x.den
def Ratio.lt (x y : Ratio) : Bool := x.num * y.den < y.num * x.den

def Decimal.ratio (d : Decimal) : Ratio :=
  ⟨d.coefficient * tenTo d.exponent.toNat, tenTo (-d.exponent).toNat⟩

/-- Whether a decimal rounds beyond the largest double.  Above `10 ^ 310` all do and below
    `10 ^ 300` none does, so only those between are worked out. -/
def Decimal.overflows (d : Decimal) : Bool :=
  let lead := (Nat.repr d.coefficient).length + d.exponent
  d.coefficient != 0 &&
    (310 < lead || (300 < lead && (Binary64.round false d.ratio.num d.ratio.den).isNone))

namespace Binary64

/-- `quarters · 2 ^ (exponent - 2)`: the mantissa counted in quarters, which is
    fine enough for the ends of the rounding interval. -/
def quarters (x : Binary64) (count : Nat) : Ratio :=
  let e := x.exponent - 2
  ⟨count * twoTo e.toNat, twoTo (-e).toNat⟩

def value (x : Binary64) : Ratio := x.quarters (4 * x.mantissa)

/-- Below a power of two the neighbouring double is only half as far away. -/
def lowerEnd (x : Binary64) : Ratio :=
  if x.mantissa = twoTo 52 && leastExponent < x.exponent then x.quarters (4 * x.mantissa - 1)
  else x.quarters (4 * x.mantissa - 2)

def upperEnd (x : Binary64) : Ratio := x.quarters (4 * x.mantissa + 2)

/-- Whether the positive rational `r` rounds to `x`. -/
def covers (x : Binary64) (r : Ratio) : Bool :=
  if x.mantissa % 2 = 0 then x.lowerEnd.le r && r.le x.upperEnd
  else x.lowerEnd.lt r && r.lt x.upperEnd

def decimalLength (n : Nat) : Nat := if n = 0 then 0 else (Nat.toDigits 10 n).length

/-- The exponent of the leading decimal digit. -/
def decade (r : Ratio) : Int :=
  if r.den ≤ r.num then (decimalLength (r.num / r.den) : Int) - 1
  else -(decimalLength ((r.den + r.num - 1) / r.num - 1) : Int)

/-- The neighbours of the value among the multiples of `10 ^ grid`, the nearer
    one first and of two equally near ones the even one. -/
def neighbours (x : Binary64) (grid : Int) : List Decimal :=
  let n := x.value.num * tenTo (-grid).toNat
  let d := x.value.den * tenTo grid.toNat
  let below := n / d
  let r := n % d
  if 2 * r < d || (2 * r = d && below % 2 = 0) then [⟨below, grid⟩, ⟨below + 1, grid⟩]
  else [⟨below + 1, grid⟩, ⟨below, grid⟩]

/-- The shortest decimal that rounds to a double other than zero. -/
def shortest (x : Binary64) : Decimal :=
  let lead := decade x.value
  let hit (digits : Nat) : Option Decimal :=
    (x.neighbours (lead - digits)).find? fun d => x.covers d.ratio
  ((List.range 17).findSome? hit).getD ⟨x.mantissa, x.exponent⟩

end Binary64
end Liveboard.Number
