/-
  Liveboard/Time/Reading.lean
  ===========================
  **Timestamps in the forms servers send them.**

  A text is read as RFC 3339, else as a date and a time without offset, taken as UTC,
  separated by `T` or by white space.  A number counts seconds or milliseconds since
  1970.  What is none of these is no timestamp; it is never an error.  But the size of a
  count is computed in 64 bits, which stops a checked build at the least count there is
  (`Instant.read`).
-/
import Liveboard.Time.Instant
import Liveboard.Json.Basic
import Liveboard.Text.Blank

namespace Liveboard.Time

/-- A calendar date and a time of day; a second of 60 is a leap second. -/
structure Civil where
  date : Date
  hour : Nat
  minute : Nat
  second : Nat
  nanos : Nat
deriving DecidableEq, Repr

/-- The instant at which clocks that are `offset` seconds ahead of UTC show this. -/
def Civil.instant? (civil : Civil) (offset : Int) : Option Instant :=
  if civil.date.isValid && civil.hour < 24 && civil.minute < 60 && civil.second ≤ 60 then
    let leap := if civil.second = 60 then 1 else 0
    let seconds := civil.date.toDays * Instant.secondsPerDay +
      (civil.hour * 3600 + civil.minute * 60 + (civil.second - leap) : Nat)
    some ⟨seconds - offset, civil.nanos + leap * Instant.nanosPerSecond⟩
  else none

/-! ### Pieces of a timestamp -/

def digitValue (c : Char) : Nat := c.toNat - '0'.toNat

def natOf (digits : List Char) : Nat :=
  digits.foldl (fun n c => n * 10 + digitValue c) 0

/-- Exactly so many digits. -/
def exactly (width : Nat) (cs : List Char) : Option (Nat × List Char) :=
  let digits := cs.take width
  if digits.length = width && digits.all Char.isDigit then some (natOf digits, cs.drop width)
  else none

/-- At least one digit and at most so many. -/
def atMost (width : Nat) (cs : List Char) : Option (Nat × List Char) :=
  let digits := (cs.take width).takeWhile Char.isDigit
  if digits.isEmpty then none else some (natOf digits, cs.drop digits.length)

/-- At least one digit. -/
def unbounded (cs : List Char) : Option (Nat × List Char) :=
  let digits := cs.takeWhile Char.isDigit
  if digits.isEmpty then none else some (natOf digits, cs.dropWhile Char.isDigit)

def literal (c : Char) : List Char → Option (List Char)
  | d :: cs => if d = c then some cs else none
  | [] => none

/-- Nanoseconds from the digits of a fraction, of which only nine count. -/
def nanosOf (digits : List Char) : Nat :=
  let kept := digits.take 9
  natOf kept * Number.tenTo (9 - kept.length)

/-- A point with at least one digit, or nothing. -/
def fraction : List Char → Option (Nat × List Char)
  | '.' :: cs =>
    let digits := cs.takeWhile Char.isDigit
    if digits.isEmpty then none else some (nanosOf digits, cs.dropWhile Char.isDigit)
  | cs => some (0, cs)

/-! ### RFC 3339 -/

def isMinus (c : Char) : Bool := c == '-' || c == '\u2212'

/-- The offset from UTC in seconds, at the end of the text. -/
def zone : List Char → Option Int
  | ['Z'] => some 0
  | ['z'] => some 0
  | sign :: cs => do
    let (hours, cs) ← exactly 2 cs
    let cs ← literal ':' cs
    let (minutes, cs) ← exactly 2 cs
    if cs.isEmpty && hours < 24 && minutes < 60 then
      let size : Int := (hours * 3600 + minutes * 60 : Nat)
      if sign = '+' then some size
      else if isMinus sign then some (-size)
      else none
    else none
  | [] => none

def isDateTimeMark (c : Char) : Bool := c == 'T' || c == 't' || c == ' '

def rfc3339? (cs : List Char) : Option Instant := do
  let (year, cs) ← exactly 4 cs
  let cs ← literal '-' cs
  let (month, cs) ← exactly 2 cs
  let cs ← literal '-' cs
  let (day, cs) ← exactly 2 cs
  match cs with
  | mark :: cs =>
    if isDateTimeMark mark then do
      let (hour, cs) ← exactly 2 cs
      let cs ← literal ':' cs
      let (minute, cs) ← exactly 2 cs
      let cs ← literal ':' cs
      let (second, cs) ← exactly 2 cs
      let (nanos, cs) ← fraction cs
      let offset ← zone cs
      Civil.instant? ⟨⟨year, month, day⟩, hour, minute, second, nanos⟩ offset
    else none
  | [] => none

/-! ### Without an offset -/

/-- A number of one or two digits, white space before it allowed. -/
def loosePair (cs : List Char) : Option (Nat × List Char) := atMost 2 (Text.trimLeft cs)

/-- One to four digits, or a sign and any number of them. -/
def looseYear (cs : List Char) : Option (Int × List Char) :=
  match Text.trimLeft cs with
  | '-' :: cs => do
    let (n, cs) ← unbounded cs
    some (-(n : Int), cs)
  | '+' :: cs => do
    let (n, cs) ← unbounded cs
    some ((n : Int), cs)
  | cs => do
    let (n, cs) ← atMost 4 cs
    some ((n : Int), cs)

/-- What stands between the date and the time of day. -/
inductive Separator where
  | mark
  | blanks

def Separator.skip : Separator → List Char → Option (List Char)
  | .mark, cs => literal 'T' cs
  | .blanks, cs => some (Text.trimLeft cs)

def naive? (separator : Separator) (cs : List Char) : Option Instant := do
  let (year, cs) ← looseYear cs
  let cs ← literal '-' cs
  let (month, cs) ← loosePair cs
  let cs ← literal '-' cs
  let (day, cs) ← loosePair cs
  let cs ← separator.skip cs
  let (hour, cs) ← loosePair cs
  let cs ← literal ':' cs
  let (minute, cs) ← loosePair cs
  let cs ← literal ':' cs
  let (second, cs) ← loosePair cs
  let (nanos, cs) ← fraction cs
  if cs.isEmpty then Civil.instant? ⟨⟨year, month, day⟩, hour, minute, second, nanos⟩ 0 else none

/-! ### Timestamp fields -/

def ofText? (text : List Char) : Option Instant :=
  let cs := Text.trim text
  rfc3339? cs <|> naive? .mark cs <|> naive? .blanks cs

example : (ofText? "2024-02-29T23:59:60.5-00:30".toList).map Instant.text =
    some "2024-03-01T00:29:60.500Z" := by decide +kernel
example : (ofText? " 2025-3-1  12:0:0 ".toList).map Instant.text =
    some "2025-03-01T12:00:00Z" := by decide +kernel
example : (ofText? "+10000-01-01T00:00:00".toList).map Instant.text =
    some "+10000-01-01T00:00:00Z" := by decide +kernel
example : ofText? "+10000-01-01T00:00:00Z".toList = none := by decide +kernel
example : ofText? "2023-02-29T00:00:00Z".toList = none := by decide +kernel

/-- An integer cut to the signed 64-bit range. -/
def saturate (n : Int) : Int64 :=
  if n < Int64.minValue.toInt then Int64.minValue
  else if Int64.maxValue.toInt < n then Int64.maxValue
  else Int64.ofInt n

/-- The count a numeral denotes: integers as they are, doubles toward zero, and
    either cut to 64 bits. -/
def countOf : Numeral → Int64
  | .integer n => saturate n
  | .double x => saturate x.truncate

namespace Instant

/-- The timestamp a value denotes, if any. -/
def read (build : Build) : Json → Computed (Option Instant)
  | .str s => .value (ofText? s.toList)
  | .num n => ofEpoch build (countOf n)
  | _ => .value none

/-- The timestamp that an unchecked build reads. -/
def ofJson? : Json → Option Instant
  | .str s => ofText? s.toList
  | .num n => ofEpoch? (countOf n)
  | _ => none

@[simp] theorem read_unchecked (json : Json) : read .unchecked json = .value (ofJson? json) := by
  cases json <;> rfl

def toJson (t : Instant) : Json := .str t.text

end Instant

end Liveboard.Time
