/-
  Liveboard/Config/Toml/Scalar.lean
  =================================
  **Numbers and Booleans of TOML.**

  An integer fits 64 bits with a sign, in base ten, sixteen, eight or two.  A float has a
  fraction or an exponent; a positive one that rounds beyond the largest double is no
  value at all.
-/
import Liveboard.Config.Setting
import Liveboard.Config.Toml.Key

namespace Liveboard.Config.Toml

/-! ### Digits -/

/-- Digits with single underscores between them, as the digits alone. -/
def plainDigits? (isDigit : Char → Bool) : List Char → Option (List Char)
  | [] => none
  | [c] => if isDigit c then some [c] else none
  | c :: '_' :: rest => if isDigit c then (plainDigits? isDigit rest).map (c :: ·) else none
  | c :: rest => if isDigit c then (plainDigits? isDigit rest).map (c :: ·) else none

def valueOf (base : Nat) (digits : List Char) : Nat :=
  digits.foldl (fun n c => n * base + (hexValue? c).getD 0) 0

def isOctal (c : Char) : Bool := '0' ≤ c && c ≤ '7'
def isBinary (c : Char) : Bool := c == '0' || c == '1'

def splitSign : List Char → Bool × List Char
  | '-' :: cs => (true, cs)
  | '+' :: cs => (false, cs)
  | cs => (false, cs)

/-- Decimal digits without a leading zero. -/
def decimal? (cs : List Char) : Option (List Char) := do
  let digits ← plainDigits? Char.isDigit cs
  if digits.length > 1 && digits.head? == some '0' then none else some digits

/-! ### Floats -/

def isExponentMark (c : Char) : Bool := c == 'e' || c == 'E'

/-- The exponent of a float, mark included; without one it is zero. -/
def exponent? : List Char → Option Int
  | [] => some 0
  | _ :: cs => do
    let (isNegative, digits) := splitSign cs
    let n : Int := valueOf 10 (← plainDigits? Char.isDigit digits)
    some (if isNegative then -n else n)

/-- The number a float denotes, its sign aside. -/
def float? (cs : List Char) : Option Number.Decimal := do
  let whole := cs.takeWhile fun c => c != '.' && !isExponentMark c
  let digits ← decimal? whole
  match cs.drop whole.length with
  | [] => none
  | '.' :: rest => do
    let fraction := rest.takeWhile fun c => !isExponentMark c
    let places ← plainDigits? Char.isDigit fraction
    let exponent ← exponent? (rest.drop fraction.length)
    some ⟨valueOf 10 (digits ++ places), exponent - places.length⟩
  | rest => do some ⟨valueOf 10 digits, ← exponent? rest⟩

/-! ### Values -/

def inRange? (n : Int) : Option Setting :=
  if -Number.signedLimit ≤ n && n < Number.signedLimit then some (.integer n) else none

/-- A number in base ten or a named float, from its text. -/
def decimalNumber? (cs : List Char) : Option Setting :=
  let (isNegative, unsigned) := splitSign cs
  match decimal? unsigned with
  | some digits =>
    let n : Int := valueOf 10 digits
    inRange? (if isNegative then -n else n)
  | none =>
    if unsigned = ['i', 'n', 'f'] || unsigned = ['n', 'a', 'n'] then
      some (.float (String.ofList cs))
    else do
      let size ← float? unsigned
      if !isNegative && size.overflows then none else some (.float (String.ofList cs))

/-- A number or a Boolean from its text. -/
def scalar? : List Char → Option Setting
  | ['t', 'r', 'u', 'e'] => some (.bool true)
  | ['f', 'a', 'l', 's', 'e'] => some (.bool false)
  | '0' :: 'x' :: rest => do
    inRange? (valueOf 16 (← plainDigits? (fun c => (hexValue? c).isSome) rest))
  | '0' :: 'o' :: rest => do inRange? (valueOf 8 (← plainDigits? isOctal rest))
  | '0' :: 'b' :: rest => do inRange? (valueOf 2 (← plainDigits? isBinary rest))
  | cs => decimalNumber? cs

def isScalarChar (c : Char) : Bool := isBare c || c == '+' || c == '.'

end Liveboard.Config.Toml
