/-
  Liveboard/Json/Numeral.lean
  ===========================
  **Numbers as JSON text.**

  Reading: a numeral without fraction and exponent that fits 64 bits, signed or
  unsigned, is an integer; any other one is a double.  The digits of a double are
  gathered into a 64-bit significand, later ones only move the decimal exponent,
  and the result is that significand multiplied or divided by a power of ten.

  Writing: an integer in decimal, a double by its shortest digits, positional
  while the exponent of the leading digit is within `Layout.positional`.
-/
import Liveboard.Json.Basic
import Liveboard.Number.Shortest

namespace Liveboard.Numeral

open Number

/-! ### Writing -/

/-- Where positional notation ends. -/
structure Layout where
  least : Int
  greatest : Int

/-- From `0.00001` up to sixteen digits before the point. -/
def Layout.positional : Layout := ⟨-5, 15⟩

def stripZeros (digits : List Char) : List Char :=
  (digits.reverse.dropWhile (· == '0')).reverse

def zeros (n : Nat) : List Char := List.replicate n '0'

/-- Digits `d₁ d₂ …` whose leading one stands at `10 ^ lead`. -/
def layOut (layout : Layout) (digits : List Char) (lead : Int) : List Char :=
  if layout.least ≤ lead && lead ≤ layout.greatest then
    if lead < 0 then '0' :: '.' :: zeros (-lead - 1).toNat ++ digits
    else
      let whole := lead.toNat + 1
      if digits.length ≤ whole then digits ++ zeros (whole - digits.length) ++ ['.', '0']
      else digits.take whole ++ '.' :: digits.drop whole
  else
    let fraction := match digits.drop 1 with
      | [] => []
      | rest => '.' :: rest
    let power := if lead < 0 then '-' :: (Nat.repr lead.natAbs).toList
      else '+' :: (Nat.repr lead.natAbs).toList
    digits.take 1 ++ fraction ++ 'e' :: power

def doubleText (x : Binary64) : String :=
  let body :=
    if x.isZero then ['0', '.', '0']
    else
      let d := x.shortest
      let all := (Nat.repr d.coefficient).toList
      layOut .positional (stripZeros all) (d.exponent + all.length - 1)
  String.ofList (if x.negative then '-' :: body else body)

def text : Numeral → String
  | .integer n => toString n
  | .double x => doubleText x

/-! ### Reading -/

def exponentLimit : Int := twoTo 31

def digit? (c : Char) : Option Nat :=
  if c.isDigit then some (c.toNat - '0'.toNat) else none

/-- Append decimal digits to a significand for as long as it stays below
    `2 ^ 64`: the significand, how many digits it took, and what is left. -/
def gather (significand taken : Nat) : List Char → Nat × Nat × List Char
  | [] => (significand, taken, [])
  | c :: cs =>
    match digit? c with
    | none => (significand, taken, c :: cs)
    | some d =>
      if significand * 10 + d < unsignedLimit then gather (significand * 10 + d) (taken + 1) cs
      else (significand, taken, c :: cs)

/-- The leading digits of a text and the rest. -/
def digitRun (cs : List Char) : List Char × List Char :=
  (cs.takeWhile Char.isDigit, cs.dropWhile Char.isDigit)

def powerOfTen? (n : Nat) : Option Binary64 := Binary64.ofNat? false (tenTo n)

/-- `x · 10 ^ exponent`, powers beyond the range of a double in steps. -/
def scale? : Nat → Binary64 → Int → Option Binary64
  | 0, _, _ => none
  | fuel + 1, x, exponent =>
    if exponent.natAbs ≤ 308 then do
      let power ← powerOfTen? exponent.natAbs
      if 0 ≤ exponent then x.mul? power else x.div? power
    else if x.isZero then some x
    else if 0 ≤ exponent then none
    else do
      let step ← (← powerOfTen? 308) |> x.div?
      scale? fuel step (exponent + 308)

/-- A significand below `2 ^ 64` underflows to zero within two steps. -/
def scaleSteps : Nat := 4

def double? (negative : Bool) (significand : Nat) (exponent : Int) : Option Numeral := do
  let x ← Binary64.ofNat? negative significand
  .double <$> scale? scaleSteps x exponent

def clampExponent (e : Int) : Int := max (-exponentLimit) (min (exponentLimit - 1) e)

/-- The text after `e`: a sign and at least one digit. -/
def readPower (negative : Bool) (significand : Nat) (start : Int) (cs : List Char) :
    Option (Numeral × List Char) := do
  let (down, cs) := match cs with
    | '+' :: cs => (false, cs)
    | '-' :: cs => (true, cs)
    | cs => (false, cs)
  let (digits, rest) := digitRun cs
  if digits.isEmpty then none
  else
    let size : Int := digits.foldl (fun n c => n * 10 + (c.toNat - '0'.toNat)) 0
    if size < exponentLimit then do
      let n ← double? negative significand
        (clampExponent (if down then start - size else start + size))
      some (n, rest)
    else if significand = 0 || down then some (.double (Binary64.zero negative), rest)
    else none

/-- What follows the mantissa: an exponent, or nothing more of the number. -/
def readTail (negative : Bool) (significand : Nat) (exponent : Int) :
    List Char → Option (Numeral × List Char)
  | 'e' :: cs => readPower negative significand exponent cs
  | 'E' :: cs => readPower negative significand exponent cs
  | cs => do some (← double? negative significand exponent, cs)

/-- The text after the point: at least one digit. -/
def readFraction (negative : Bool) (significand : Nat) (exponent : Int) (cs : List Char) :
    Option (Numeral × List Char) :=
  if (digitRun cs).1.isEmpty then none
  else
    let (significand, taken, _) := gather significand 0 cs
    readTail negative significand (exponent - taken) (digitRun cs).2

/-- An integer that fits 64 bits; a negative zero or a negative number beyond the
    signed range is a double. -/
def whole? (negative : Bool) (n : Nat) : Option Numeral :=
  if negative then
    if n = 0 || signedLimit < n then .double <$> Binary64.ofNat? true n
    else some (.integer (-n))
  else some (.integer n)

/-- The number after an optional sign. -/
def readUnsigned (negative : Bool) (cs : List Char) : Option (Numeral × List Char) :=
  match cs with
  | '0' :: d :: rest =>
    if d.isDigit then none
    else body 0 0 (d :: rest)
  | c :: _ =>
    if c.isDigit then
      let (significand, _, rest) := gather 0 0 cs
      let (cut, rest) := digitRun rest
      body significand cut.length rest
    else none
  | [] => none
where
  body (significand cut : Nat) : List Char → Option (Numeral × List Char)
    | '.' :: cs => readFraction negative significand cut cs
    | 'e' :: cs => readPower negative significand cut cs
    | 'E' :: cs => readPower negative significand cut cs
    | cs =>
      if cut = 0 then do some (← whole? negative significand, cs)
      else do some (← double? negative significand cut, cs)

/-- A number at the front of a text, and the rest of the text. -/
def read : List Char → Option (Numeral × List Char)
  | '-' :: cs => readUnsigned true cs
  | cs => readUnsigned false cs

/-! ### Read and written back -/

/-- A numeral as it is written after it was read. -/
def writtenBack (s : String) : Option String :=
  match read s.toList with
  | some (n, []) => some n.text
  | _ => none

example : writtenBack "18446744073709551615" = some "18446744073709551615" := by decide +kernel
example : writtenBack "18446744073709551616" = some "1.8446744073709552e+19" := by decide +kernel
example : writtenBack "-0" = some "-0.0" := by decide +kernel
example : writtenBack "1e15" = some "1000000000000000.0" := by decide +kernel
example : writtenBack "1e16" = some "1e+16" := by decide +kernel
example : writtenBack "0.00001" = some "0.00001" := by decide +kernel
example : writtenBack "1e-6" = some "1e-6" := by decide +kernel
example : writtenBack "1e-400" = some "0.0" := by decide +kernel
example : writtenBack "1e400" = none := by decide +kernel
example : writtenBack "01" = none := by decide +kernel

end Liveboard.Numeral
