/-
  Liveboard/Number/Binary64.lean
  ==============================
  **Finite double-precision numbers, exactly.**

  A number is `± mantissa · 2 ^ exponent` with a 53-bit mantissa, so equality,
  rounding and printing are integer arithmetic and can be reasoned about.  Every
  operation is "the exact result, rounded to nearest, a tie to the even
  mantissa" and goes through `round`; a result beyond the largest finite number
  is `none`.
-/
import Liveboard.Number.Power

namespace Liveboard.Number

/-- A finite double.  Canonical: a mantissa below `2 ^ 52` has the least exponent
    `-1074`, so equal values are equal structures (the two zeros stay apart). -/
structure Binary64 where
  negative : Bool
  mantissa : Nat
  exponent : Int
deriving DecidableEq, BEq, Repr

namespace Binary64

def leastExponent : Int := -1074
def greatestExponent : Int := 971

def zero (negative : Bool) : Binary64 := ⟨negative, 0, leastExponent⟩

def isZero (x : Binary64) : Bool := x.mantissa == 0

/-! ### Rounding -/

/-- The quotient `num / den / 2 ^ e` as a numerator and a denominator. -/
def scaled (num den : Nat) (e : Int) : Nat × Nat :=
  (num * twoTo (-e).toNat, den * twoTo e.toNat)

/-- The exponent under which `num / den` has a mantissa of 53 bits. -/
def binade (num den : Nat) : Int :=
  let guess : Int := (num.log2 : Int) - den.log2 - 52
  let (n, d) := scaled num den guess
  if n / d < twoTo 52 then guess - 1 else guess

/-- `n / d` to the nearest integer, a tie to the even one. -/
def nearest (n d : Nat) : Nat :=
  let q := n / d
  let r := n % d
  if d < 2 * r || (2 * r == d && q % 2 == 1) then q + 1 else q

/-- The nearest integer is at most half a unit away. -/
theorem nearest_within_half {n d : Nat} (h : 0 < d) :
    2 * n ≤ 2 * (nearest n d * d) + d ∧ 2 * (nearest n d * d) ≤ 2 * n + d := by
  have split := Nat.div_add_mod n d
  have small := Nat.mod_lt n h
  rw [Nat.mul_comm] at split
  unfold nearest
  dsimp only
  split
  · next up =>
    simp only [Bool.or_eq_true, decide_eq_true_eq, Bool.and_eq_true, beq_iff_eq] at up
    rw [Nat.add_mul, Nat.one_mul]
    omega
  · next stay =>
    simp only [Bool.or_eq_true, decide_eq_true_eq, Bool.and_eq_true, beq_iff_eq, not_or] at stay
    omega

/-- A multiple is its own nearest integer. -/
theorem nearest_mul {d : Nat} (q : Nat) (h : 0 < d) : nearest (q * d) d = q := by
  have pos : ¬0 = d := by omega
  simp [nearest, Nat.mul_div_cancel q h, pos]

/-- The double nearest to `± num / den`; `none` beyond the largest one. -/
def round (negative : Bool) (num den : Nat) : Option Binary64 :=
  if num = 0 then some (zero negative)
  else
    let e := max (binade num den) leastExponent
    let (n, d) := scaled num den e
    let m := nearest n d
    let (m, e) := if m = twoTo 53 then (twoTo 52, e + 1) else (m, e)
    if m = 0 then some (zero negative)
    else if greatestExponent < e then none
    else some ⟨negative, m, e⟩

/-! ### Operations -/

def ofNat? (negative : Bool) (n : Nat) : Option Binary64 := round negative n 1

def mul? (x y : Binary64) : Option Binary64 :=
  let e := x.exponent + y.exponent
  round (x.negative != y.negative) (x.mantissa * y.mantissa * twoTo e.toNat) (twoTo (-e).toNat)

/-- Division by a number that is not zero. -/
def div? (x y : Binary64) : Option Binary64 :=
  let e := x.exponent - y.exponent
  round (x.negative != y.negative) (x.mantissa * twoTo e.toNat) (y.mantissa * twoTo (-e).toNat)

/-- The integer part, toward zero. -/
def truncate (x : Binary64) : Int :=
  let size := x.mantissa * twoTo x.exponent.toNat / twoTo (-x.exponent).toNat
  if x.negative then -(size : Int) else size

end Binary64
end Liveboard.Number
