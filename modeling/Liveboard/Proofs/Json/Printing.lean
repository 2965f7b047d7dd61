/-
  Liveboard/Proofs/Json/Printing.lean
  ===================================
  **JSON text reads back as the value that was written.**

  A value is legible if it nests no deeper than the reader goes and every number in it reads
  back from its own text.  All integers do (`isLegible_integer`); a double need not, for the
  reader does not round correctly.  The text of a legible value reads back as that value, with
  the keys of its objects put in order (`read?_compact`).

  The readers take the front of a text and return the rest, so each of them is followed through
  what the writer wrote with anything behind it.  A number is the only thing that has no end of
  its own: what comes behind it must not go on with it (`Stops`).
-/
import Liveboard.Json.Reader
import Liveboard.Json.Writer

namespace Liveboard

namespace Numeral

variable {cs rest left : List Char} {n : Numeral} {negative : Bool}

/-! ### Numbers -/

/-- The character could belong to a number that has begun. -/
def continues (c : Char) : Bool :=
  c.isDigit || c == '.' || c == 'e' || c == 'E' || c == '+' || c == '-'

/-- The text does not go on with a number. -/
def Stops (rest : List Char) : Prop := ∀ c ∈ rest.head?, continues c = false

theorem stops_nil : Stops [] := by
  intro c mem
  cases mem

theorem stops_cons {c : Char} (other : continues c = false) (cs : List Char) : Stops (c :: cs) := by
  intro d mem
  cases mem
  exact other

theorem Stops.head {c : Char} (stops : Stops (c :: rest)) :
    c.isDigit = false ∧ c ≠ '.' ∧ c ≠ 'e' ∧ c ≠ 'E' ∧ c ≠ '+' ∧ c ≠ '-' := by
  have other := stops c rfl
  simpa [continues, and_assoc] using other

theorem digitRun_append (stops : Stops rest) (cs : List Char) :
    digitRun (cs ++ rest) = ((digitRun cs).1, (digitRun cs).2 ++ rest) := by
  induction cs with
  | nil =>
    cases rest with
    | nil => rfl
    | cons c rest =>
      simp [digitRun, stops.head]
  | cons c cs ih =>
    rw [digitRun, digitRun, Prod.mk.injEq] at ih
    by_cases digit : c.isDigit = true
    · simp [digitRun, digit, ih]
    · simp [digitRun, digit]

theorem gather_append (stops : Stops rest) (significand taken : Nat) (cs : List Char) :
    gather significand taken (cs ++ rest) =
      ((gather significand taken cs).1, (gather significand taken cs).2.1,
        (gather significand taken cs).2.2 ++ rest) := by
  induction cs generalizing significand taken with
  | nil =>
    cases rest with
    | nil => rfl
    | cons c rest =>
      simp [gather, digit?, stops.head]
  | cons c cs ih =>
    rw [List.cons_append, gather, gather]
    cases digit? c with
    | none => rfl
    | some d =>
      by_cases fits : significand * 10 + d < Number.unsignedLimit
      · simp only [if_pos fits]
        exact ih _ _
      · simp only [if_neg fits]
        rfl

/-- The same number with more left behind it. -/
def followedBy (rest : List Char) (read : Option (Numeral × List Char)) :
    Option (Numeral × List Char) :=
  read.map fun result => (result.1, result.2 ++ rest)

@[simp] theorem followedBy_none : followedBy rest none = none := rfl

@[simp] theorem followedBy_some : followedBy rest (some (n, left)) = some (n, left ++ rest) := rfl

@[simp] theorem followedBy_bind {α : Type} (found : Option α)
    (next : α → Option (Numeral × List Char)) :
    followedBy rest (found.bind next) = found.bind fun a => followedBy rest (next a) :=
  Option.map_bind

@[simp] theorem followedBy_ite {p : Prop} [Decidable p] (yes no : Option (Numeral × List Char)) :
    followedBy rest (if p then yes else no) =
      if p then followedBy rest yes else followedBy rest no :=
  apply_ite ..

theorem readPower_append (stops : Stops rest) (significand : Nat) (start : Int) (cs : List Char) :
    readPower negative significand start (cs ++ rest) =
      followedBy rest (readPower negative significand start cs) := by
  cases cs with
  | nil =>
    cases rest with
    | nil => rfl
    | cons c rest =>
      simp [readPower, digitRun, stops.head]
  | cons c cs =>
    -- a sign is dropped, anything else belongs to the digits
    by_cases plus : c = '+'
    · subst plus
      simp [readPower, digitRun_append stops]
    by_cases minus : c = '-'
    · subst minus
      simp [readPower, digitRun_append stops]
    have whole := digitRun_append stops (c :: cs)
    rw [List.cons_append] at whole ⊢
    simp [readPower, plus, minus, whole]

theorem readTail_append (stops : Stops rest) (significand : Nat) (exponent : Int) (cs : List Char) :
    readTail negative significand exponent (cs ++ rest) =
      followedBy rest (readTail negative significand exponent cs) := by
  cases cs with
  | nil =>
    cases rest with
    | nil => simp [readTail]
    | cons c rest =>
      simp [readTail, stops.head]
  | cons c cs =>
    by_cases lower : c = 'e'
    · subst lower
      exact readPower_append stops _ _ _
    by_cases upper : c = 'E'
    · subst upper
      exact readPower_append stops _ _ _
    simp [readTail, lower, upper]

theorem readFraction_append (stops : Stops rest) (significand : Nat) (exponent : Int)
    (cs : List Char) :
    readFraction negative significand exponent (cs ++ rest) =
      followedBy rest (readFraction negative significand exponent cs) := by
  simp [readFraction, digitRun_append stops, gather_append stops, readTail_append stops]

theorem body_append (stops : Stops rest) (significand cut : Nat) (cs : List Char) :
    readUnsigned.body negative significand cut (cs ++ rest) =
      followedBy rest (readUnsigned.body negative significand cut cs) := by
  cases cs with
  | nil =>
    cases rest with
    | nil => simp [readUnsigned.body]
    | cons c rest =>
      simp [readUnsigned.body, stops.head]
  | cons c cs =>
    by_cases point : c = '.'
    · subst point
      exact readFraction_append stops _ _ _
    by_cases lower : c = 'e'
    · subst lower
      exact readPower_append stops _ _ _
    by_cases upper : c = 'E'
    · subst upper
      exact readPower_append stops _ _ _
    simp [readUnsigned.body, point, lower, upper]

theorem readUnsigned_nil : readUnsigned negative [] = none := rfl

/-- A number that begins with zero has no more digits before the point. -/
theorem readUnsigned_cons (c : Char) (cs : List Char) :
    readUnsigned negative (c :: cs) =
      if c.isDigit && !(c == '0' && cs.head?.any Char.isDigit) then
        readUnsigned.body negative (gather 0 0 (c :: cs)).1
          (digitRun (gather 0 0 (c :: cs)).2.2).1.length (digitRun (gather 0 0 (c :: cs)).2.2).2
      else none := by
  by_cases zero : c = '0'
  · subst zero
    cases cs with
    | nil => rfl
    | cons d cs =>
      by_cases digit : d.isDigit = true
      · simp [readUnsigned, digit]
      · have room : 0 < Number.unsignedLimit := by decide
        simp [readUnsigned, gather, digit?, digitRun, digit, room]
  · cases cs with
    | nil => simp [readUnsigned]
    | cons d cs => simp [readUnsigned, zero]

theorem readUnsigned_append (stops : Stops rest) (cs : List Char) :
    readUnsigned negative (cs ++ rest) = followedBy rest (readUnsigned negative cs) := by
  cases cs with
  | nil =>
    cases rest with
    | nil => rfl
    | cons c rest =>
      simp [readUnsigned_cons, readUnsigned_nil, stops.head]
  | cons c cs =>
    have same : (cs ++ rest).head?.any Char.isDigit = cs.head?.any Char.isDigit := by
      cases cs with
      | nil =>
        cases rest with
        | nil => rfl
        | cons d rest => exact stops.head.1
      | cons d cs => rfl
    have whole := gather_append stops 0 0 (c :: cs)
    rw [List.cons_append] at whole ⊢
    simp only [readUnsigned_cons, whole, same, digitRun_append stops, body_append stops,
      followedBy_ite, followedBy_none]

theorem read_append (stops : Stops rest) (cs : List Char) :
    read (cs ++ rest) = followedBy rest (read cs) := by
  cases cs with
  | nil =>
    cases rest with
    | nil => rfl
    | cons c rest =>
      simp [read, readUnsigned_cons, readUnsigned_nil, stops.head]
  | cons c cs =>
    by_cases minus : c = '-'
    · subst minus
      exact readUnsigned_append stops _
    have whole : readUnsigned false (c :: cs ++ rest) = _ := readUnsigned_append stops _
    rw [List.cons_append] at whole ⊢
    simp [read, minus, whole]

/-- A number begins with its sign or with a digit. -/
theorem eq_cons_of_read (found : read cs = some (n, left)) :
    ∃ c tail, cs = c :: tail ∧ (c = '-' ∨ c.isDigit = true) := by
  cases cs with
  | nil => cases found
  | cons c cs =>
    refine ⟨c, cs, rfl, ?_⟩
    by_cases minus : c = '-'
    · exact .inl minus
    · refine .inr (Decidable.byContradiction fun other => ?_)
      simp [read, minus, readUnsigned_cons, other] at found

/-! ### Integers -/

theorem digit?_digitChar (n : Nat) : digit? (Nat.digitChar (n % 10)) = some (n % 10) := by
  have each : ∀ k : Fin 10, digit? (Nat.digitChar k) = some k.val := by decide
  exact each ⟨n % 10, Nat.mod_lt n (by decide)⟩

/-- Gathering the digits of a number that fits restores it. -/
theorem gather_toDigits (n : Nat) (fits : n < Number.unsignedLimit) (rest : List Char) :
    ∃ taken, gather 0 0 (Nat.toDigits 10 n ++ rest) = gather n taken rest := by
  induction n using Nat.strongRecOn generalizing rest with
  | ind n ih =>
    have last : ∀ taken, gather (n / 10) taken (Nat.digitChar (n % 10) :: rest) =
        gather n (taken + 1) rest := by
      intro taken
      have whole : n / 10 * 10 + n % 10 = n := by omega
      simp only [gather, digit?_digitChar, whole, if_pos fits]
    by_cases single : n < 10
    · refine ⟨1, ?_⟩
      have whole := last 0
      rw [Nat.div_eq_of_lt single, Nat.mod_eq_of_lt single] at whole
      rw [Nat.toDigits_of_lt_base single]
      exact whole
    · obtain ⟨taken, gathered⟩ :=
        ih (n / 10) (by omega) (by omega) (Nat.digitChar (n % 10) :: rest)
      refine ⟨taken + 1, ?_⟩
      rw [Nat.toDigits_of_base_le (by decide) (by omega), List.append_assoc, List.singleton_append,
        gathered, last]

/-- Only zero begins with a zero. -/
theorem exists_toDigits (n : Nat) :
    ∃ c cs, Nat.toDigits 10 n = c :: cs ∧ c.isDigit = true ∧ (c = '0' → n = 0) := by
  induction n using Nat.strongRecOn with
  | ind n ih =>
    by_cases single : n < 10
    · have each : ∀ k : Fin 10, (Nat.digitChar k).isDigit = true ∧
          (Nat.digitChar k = '0' → k.val = 0) := by
        decide
      exact ⟨_, [], Nat.toDigits_of_lt_base single, each ⟨n, single⟩⟩
    · obtain ⟨c, cs, first, digit, notZero⟩ := ih (n / 10) (by omega)
      refine ⟨c, cs ++ [Nat.digitChar (n % 10)], ?_, digit, fun zero => ?_⟩
      · rw [Nat.toDigits_of_base_le (by decide) (by omega), first, List.cons_append]
      · have tenth := notZero zero
        omega

theorem readUnsigned_toDigits {n : Nat} (fits : n < Number.unsignedLimit) :
    readUnsigned negative (Nat.toDigits 10 n) = (whole? negative n).map fun read => (read, []) := by
  obtain ⟨c, cs, digits, digit, notZero⟩ := exists_toDigits n
  obtain ⟨taken, gathered⟩ := gather_toDigits n fits []
  have single : (c == '0' && cs.head?.any Char.isDigit) = false := by
    by_cases zero : c = '0'
    · rw [notZero zero] at digits
      cases digits
      rfl
    · simp [zero]
  rw [List.append_nil, digits] at gathered
  rw [digits, readUnsigned_cons, digit, single, gathered, Option.map_eq_bind]
  rfl

/-- Every integer that JSON has reads back from its text. -/
theorem read_text_integer {n : Int} (least : -(Number.signedLimit : Int) ≤ n)
    (greatest : n < Number.unsignedLimit) :
    read (text (.integer n)).toList = some (.integer n, []) := by
  cases n with
  | ofNat n =>
    have fits : n < Number.unsignedLimit := Int.ofNat_lt.mp greatest
    have digits : readUnsigned false (Nat.toDigits 10 n) = _ := readUnsigned_toDigits fits
    have written : (text (.integer (Int.ofNat n))).toList = Nat.toDigits 10 n := Nat.toList_repr
    obtain ⟨c, cs, first, digit, -⟩ := exists_toDigits n
    have notMinus : c ≠ '-' := by
      rintro rfl
      cases digit
    rw [first] at written digits
    rw [written]
    simp [read, notMinus, digits, whole?]
  | negSucc n =>
    have small : n + 1 ≤ Number.signedLimit := by omega
    have limits : Number.signedLimit < Number.unsignedLimit := by decide
    have digits : readUnsigned true (Nat.toDigits 10 (n + 1)) = _ :=
      readUnsigned_toDigits (Nat.lt_of_le_of_lt small limits)
    have written : (text (.integer (Int.negSucc n))).toList = '-' :: Nat.toDigits 10 (n + 1) := by
      change ("-" ++ Nat.repr (n + 1)).toList = _
      rw [String.toList_append, Nat.toList_repr]
      rfl
    rw [written, read, digits, whole?, if_pos rfl, if_neg (by simpa using small)]
    rfl

end Numeral

namespace Json

variable {rest : List Char}

/-! ### Strings -/

theorem hexValue?_hexDigit (n : Nat) : hexValue? (hexDigit n) = some (n % 16) := by
  have each : ∀ k : Fin 16, hexValue? (Nat.digitChar k) = some k.val := by decide
  exact each ⟨n % 16, Nat.mod_lt n (by decide)⟩

theorem readUnit_hex {n : Nat} (small : n < 256) :
    readUnit ('0' :: '0' :: hexDigit (n / 16) :: hexDigit n :: rest) = some (n, rest) := by
  have zero : hexValue? '0' = some 0 := rfl
  have whole : ((0 * 16 + 0) * 16 + n / 16 % 16) * 16 + n % 16 = n := by omega
  simp only [readUnit, zero, hexValue?_hexDigit, Option.bind_eq_bind, Option.bind_some, whole]

theorem readEscape_control {c : Char} (control : c.toNat < 0x20) :
    readEscape ('u' :: '0' :: '0' :: hexDigit (c.toNat / 16) :: hexDigit c.toNat :: rest) =
      some (c, rest) := by
  have noSurrogate : ¬ 0xDC00 ≤ c.toNat := by omega
  have noPair : ¬ 0xD800 ≤ c.toNat := by omega
  simp [readEscape, readUnit_hex (Nat.lt_trans control (by decide)), noSurrogate, noPair]

/-- A character stands for itself or behind a backslash. -/
theorem escapeChar_cases (c : Char) :
    (escapeChar c = [c] ∧ c ≠ '"' ∧ c ≠ '\\' ∧ ¬ c.toNat < 0x20) ∨
      ∃ escape, escapeChar c = '\\' :: escape ∧
        ∀ rest, readEscape (escape ++ rest) = some (c, rest) := by
  by_cases quote : c = '"'
  · exact .inr ⟨['"'], by rw [escapeChar, if_pos quote], fun rest => by rw [quote]; rfl⟩
  by_cases backslash : c = '\\'
  · exact .inr ⟨['\\'], by rw [escapeChar, if_neg quote, if_pos backslash],
      fun rest => by rw [backslash]; rfl⟩
  by_cases control : c.toNat < 0x20
  · refine .inr ⟨(escapeChar c).tail, ?_⟩
    rw [escapeChar, if_neg quote, if_neg backslash, if_pos control]
    split
    · next same =>
      obtain rfl : c = '\x08' := Char.toNat_inj.mp same
      exact ⟨rfl, fun rest => rfl⟩
    · next same =>
      obtain rfl : c = '\t' := Char.toNat_inj.mp same
      exact ⟨rfl, fun rest => rfl⟩
    · next same =>
      obtain rfl : c = '\n' := Char.toNat_inj.mp same
      exact ⟨rfl, fun rest => rfl⟩
    · next same =>
      obtain rfl : c = '\x0c' := Char.toNat_inj.mp same
      exact ⟨rfl, fun rest => rfl⟩
    · next same =>
      obtain rfl : c = '\r' := Char.toNat_inj.mp same
      exact ⟨rfl, fun rest => rfl⟩
    · exact ⟨rfl, fun rest => readEscape_control control⟩
  · exact .inl ⟨by rw [escapeChar, if_neg quote, if_neg backslash, if_neg control], quote,
      backslash, control⟩

/-- Reading a string undoes the escapes, character by character. -/
theorem readText_escaped (s : List Char) : ∀ {fuel : Nat} (done : List Char), s.length < fuel →
    readText fuel done (s.flatMap escapeChar ++ '"' :: rest) =
      some (String.ofList (done.reverse ++ s), rest) := by
  induction s with
  | nil =>
    intro fuel done enough
    cases fuel with
    | zero => cases enough
    | succ fuel => simp [readText]
  | cons c s ih =>
    intro fuel done enough
    cases fuel with
    | zero => cases enough
    | succ fuel =>
      have next := ih (c :: done) (Nat.lt_of_succ_lt_succ enough)
      rw [List.reverse_cons, List.append_assoc, List.singleton_append] at next
      rw [List.flatMap_cons, List.append_assoc]
      rcases escapeChar_cases c with ⟨plain, quote, backslash, control⟩ | ⟨escape, escaped, back⟩
      · simp [plain, readText, control, next]
      · simp [escaped, readText, back, next]

theorem length_le_escaped (s : List Char) : s.length ≤ (s.flatMap escapeChar).length := by
  induction s with
  | nil => exact Nat.le_refl 0
  | cons c s ih =>
    have one : 1 ≤ (escapeChar c).length := by
      rcases escapeChar_cases c with ⟨plain, _⟩ | ⟨escape, escaped, _⟩
      · simp [plain]
      · simp [escaped]
    rw [List.flatMap_cons, List.length_append, List.length_cons]
    omega

/-- The text behind an opening quote is read up to the closing one. -/
theorem readText_quoted {s : String} {fuel : Nat}
    (short : (s.toList.flatMap escapeChar).length ≤ fuel) (rest : List Char) :
    readText (fuel + 1) [] (s.toList.flatMap escapeChar ++ '"' :: rest) = some (s, rest) := by
  have enough : s.toList.length < fuel + 1 :=
    Nat.lt_succ_of_le (Nat.le_trans (length_le_escaped s.toList) short)
  rw [readText_escaped s.toList [] enough, List.reverse_nil, List.nil_append, String.ofList_toList]

theorem toList_quoted (s : String) :
    (quoted s).toList = '"' :: (s.toList.flatMap escapeChar ++ ['"']) := by
  simp [quoted]

/-! ### Legible values -/

mutual
/-- The value nests at most so deep, and every number in it reads back from its own text. -/
def isLegible : Nat → Json → Bool
  | _, .null => true
  | _, .bool _ => true
  | _, .num n => decide (Numeral.read n.text.toList = some (n, []))
  | _, .str _ => true
  | depth, .arr items => depth != 0 && areItemsLegible (depth - 1) items
  | depth, .obj fields => depth != 0 && areFieldsLegible (depth - 1) fields
termination_by structural _ json => json

def areItemsLegible : Nat → List Json → Bool
  | _, [] => true
  | depth, item :: items => isLegible depth item && areItemsLegible depth items
termination_by structural _ items => items

def areFieldsLegible : Nat → List (String × Json) → Bool
  | _, [] => true
  | depth, (_, value) :: fields => isLegible depth value && areFieldsLegible depth fields
termination_by structural _ fields => fields
end

theorem isLegible_integer {n : Int} (least : -(Number.signedLimit : Int) ≤ n)
    (greatest : n < Number.unsignedLimit) (depth : Nat) :
    isLegible depth (.num (.integer n)) = true :=
  decide_eq_true (Numeral.read_text_integer least greatest)

/-! ### The text of a value -/

/-- Texts with commas between them. -/
def listed (texts : List String) : List Char := [','].intercalate (texts.map String.toList)

theorem listed_singleton (text : String) : listed [text] = text.toList := by
  simp [listed]

theorem listed_cons_cons (text next : String) (texts : List String) :
    listed (text :: next :: texts) = text.toList ++ ',' :: listed (next :: texts) := by
  simp [listed]

theorem toList_compact_arr (items : List Json) :
    (arr items).compact.toList = '[' :: (listed (compactItems items) ++ [']']) := by
  simp [compact, listed]

theorem toList_compact_obj (fields : List (String × Json)) :
    (obj fields).compact.toList = '\x7b' :: (listed (compactFields fields) ++ ['\x7d']) := by
  simp [compact, listed]

/-- Neither white space nor a closing bracket comes first. -/
def Opens (cs : List Char) : Prop := ∃ c ∈ cs.head?, isSpace c = false ∧ c ≠ ']' ∧ c ≠ '\x7d'

theorem Opens.skipSpace {cs : List Char} (opens : Opens cs) : skipSpace cs = cs := by
  obtain ⟨c, head, noSpace, -⟩ := opens
  cases cs with
  | nil => rfl
  | cons d cs =>
    cases head
    simp [Json.skipSpace, noSpace]

theorem Opens.append {cs : List Char} (opens : Opens cs) (rest : List Char) :
    Opens (cs ++ rest) := by
  obtain ⟨c, head, opening⟩ := opens
  cases cs with
  | nil => cases head
  | cons d cs => exact ⟨c, head, opening⟩

theorem Opens.length_pos {cs : List Char} (opens : Opens cs) : 0 < cs.length := by
  obtain ⟨c, head, -⟩ := opens
  cases cs with
  | nil => cases head
  | cons d cs => exact Nat.succ_pos _

theorem opens_number {c : Char} (first : c = '-' ∨ c.isDigit = true) (cs : List Char) :
    Opens (c :: cs) := by
  refine ⟨c, rfl, ?_, ?_, ?_⟩
  · rw [Bool.eq_false_iff]
    intro space
    simp only [isSpace, Bool.or_eq_true, beq_iff_eq] at space
    rcases space with ((rfl | rfl) | rfl) | rfl <;> simp at first
  · rintro rfl
    simp at first
  · rintro rfl
    simp at first

theorem opens_compact {json : Json} {depth : Nat} (legible : json.isLegible depth = true) :
    Opens json.compact.toList := by
  cases json with
  | null => exact ⟨'n', rfl, rfl, by decide, by decide⟩
  | bool b =>
    cases b with
    | false => exact ⟨'f', rfl, rfl, by decide, by decide⟩
    | true => exact ⟨'t', rfl, rfl, by decide, by decide⟩
  | num n =>
    have found := of_decide_eq_true legible
    obtain ⟨c, tail, whole, first⟩ := Numeral.eq_cons_of_read found
    rw [compact, whole]
    exact opens_number first tail
  | str s =>
    rw [compact, toList_quoted]
    exact ⟨'"', rfl, rfl, by decide, by decide⟩
  | arr items =>
    rw [toList_compact_arr]
    exact ⟨'[', rfl, rfl, by decide, by decide⟩
  | obj fields =>
    rw [toList_compact_obj]
    exact ⟨'\x7b', rfl, rfl, by decide, by decide⟩

/-! ### Reading back what was written -/

theorem readValue_number {c : Char} (first : c = '-' ∨ c.isDigit = true) (fuel depth : Nat)
    (cs : List Char) :
    readValue (fuel + 1) depth (c :: cs) =
      (Numeral.read (c :: cs)).bind fun result => some (.num result.1, result.2) := by
  have other : ∀ d : Char, d ≠ '-' → d.isDigit = false → c ≠ d := by
    rintro d minus digit rfl
    rcases first with first | first
    · exact minus first
    · rw [digit] at first; cases first
  have n := other 'n' (by decide) rfl
  have t := other 't' (by decide) rfl
  have f := other 'f' (by decide) rfl
  have q := other '"' (by decide) rfl
  have a := other '[' (by decide) rfl
  have o := other '\x7b' (by decide) rfl
  simp [readValue, n, t, f, q, a, o]

section Steps

variable {fuel depth : Nat} {cs more : List Char}

theorem readValue_arr (room : depth ≠ 0) (opens : Opens cs) {items : List Json}
    (inside : readItems fuel (depth - 1) cs = some (items, rest)) :
    readValue (fuel + 1) depth ('[' :: cs) = some (.arr items, rest) := by
  rw [readValue, if_neg room, opens.skipSpace]
  obtain ⟨c, head, -, other, -⟩ := opens
  cases cs with
  | nil => cases head
  | cons d cs =>
    cases head
    simp [other, inside]

theorem readValue_obj (room : depth ≠ 0) (opens : Opens cs) {fields : List (String × Json)}
    (inside : readFields fuel (depth - 1) cs = some (fields, rest)) :
    readValue (fuel + 1) depth ('\x7b' :: cs) = some (.obj (Fields.ofList fields), rest) := by
  rw [readValue, if_neg room, opens.skipSpace]
  obtain ⟨c, head, -, -, other⟩ := opens
  cases cs with
  | nil => cases head
  | cons d cs =>
    cases head
    simp [other, inside]

theorem readValue_arr_nil (room : depth ≠ 0) :
    readValue (fuel + 1) depth ('[' :: ']' :: rest) = some (.arr [], rest) := by
  have bracket : skipSpace (']' :: rest) = ']' :: rest := rfl
  simp [readValue, room, bracket]

theorem readValue_obj_nil (room : depth ≠ 0) :
    readValue (fuel + 1) depth ('\x7b' :: '\x7d' :: rest) = some (.obj [], rest) := by
  have brace : skipSpace ('\x7d' :: rest) = '\x7d' :: rest := rfl
  simp [readValue, room, brace]

theorem readItems_last {item : Json} (read : readValue fuel depth cs = some (item, ']' :: rest)) :
    readItems (fuel + 1) depth cs = some ([item], rest) := by
  rw [readItems, read]
  rfl

theorem readItems_more {item : Json} {items : List Json}
    (read : readValue fuel depth cs = some (item, ',' :: more)) (opens : Opens more)
    (others : readItems fuel depth more = some (items, rest)) :
    readItems (fuel + 1) depth cs = some (item :: items, rest) := by
  have comma : skipSpace (',' :: more) = ',' :: more := rfl
  simp [readItems, read, comma, opens.skipSpace, others]

/-- Reading a field up to the comma or the brace behind its value. -/
theorem readFields_last {key : String} {value : Json}
    (short : (key.toList.flatMap escapeChar).length ≤ fuel)
    (opens : Opens cs) (read : readValue fuel depth cs = some (value, '\x7d' :: rest)) :
    readFields (fuel + 1) depth ('"' :: (key.toList.flatMap escapeChar ++ '"' :: ':' :: cs)) =
      some ([(key, value)], rest) := by
  have name := readText_quoted short (':' :: cs)
  have colon : skipSpace (':' :: cs) = ':' :: cs := rfl
  have brace : skipSpace ('\x7d' :: rest) = '\x7d' :: rest := rfl
  simp [readFields, name, colon, opens.skipSpace, read, brace]

theorem readFields_more {key : String} {value : Json} {fields : List (String × Json)}
    (short : (key.toList.flatMap escapeChar).length ≤ fuel)
    (opens : Opens cs) (read : readValue fuel depth cs = some (value, ',' :: more))
    (opens' : Opens more) (others : readFields fuel depth more = some (fields, rest)) :
    readFields (fuel + 1) depth ('"' :: (key.toList.flatMap escapeChar ++ '"' :: ':' :: cs)) =
      some ((key, value) :: fields, rest) := by
  have name := readText_quoted short (':' :: cs)
  have colon : skipSpace (':' :: cs) = ':' :: cs := rfl
  have comma : skipSpace (',' :: more) = ',' :: more := rfl
  simp [readFields, name, colon, opens.skipSpace, read, comma, opens'.skipSpace, others]

end Steps

theorem toList_field (key : String) (value : Json) :
    (quoted key ++ ":" ++ value.compact).toList =
      '"' :: (key.toList.flatMap escapeChar ++ '"' :: ':' :: value.compact.toList) := by
  simp [toList_quoted]

theorem opens_items {items : List Json} {depth : Nat} (nonempty : items ≠ [])
    (legible : areItemsLegible depth items = true) : Opens (listed (compactItems items)) := by
  match items with
  | [] => exact absurd rfl nonempty
  | [item] =>
    rw [compactItems, compactItems, listed_singleton]
    exact opens_compact (Bool.and_eq_true_iff.mp legible).1
  | item :: next :: items =>
    rw [compactItems, compactItems, listed_cons_cons]
    exact (opens_compact (Bool.and_eq_true_iff.mp legible).1).append _

theorem opens_fields {fields : List (String × Json)} (nonempty : fields ≠ []) :
    Opens (listed (compactFields fields)) := by
  have first : ∀ key value, Opens (quoted key ++ ":" ++ compact value).toList := by
    intro key value
    rw [toList_field]
    exact ⟨'"', rfl, rfl, by decide, by decide⟩
  match fields with
  | [] => exact absurd rfl nonempty
  | [(key, value)] =>
    rw [compactFields, compactFields, listed_singleton]
    exact first key value
  | (key, value) :: next :: fields =>
    rw [compactFields, compactFields, listed_cons_cons]
    exact (first key value).append _

/-- With two steps for each character, the text of the value reads back as the value. -/
def ReadsBack (json : Json) : Prop :=
  ∀ (depth fuel : Nat) (rest : List Char), json.isLegible depth = true →
    2 * json.compact.toList.length ≤ fuel → Numeral.Stops rest →
    readValue fuel depth (json.compact.toList ++ rest) = some (json.canonical, rest)

theorem exists_succ_of_enough {json : Json} {depth fuel : Nat}
    (legible : json.isLegible depth = true)
    (enough : 2 * json.compact.toList.length ≤ fuel) : ∃ less, fuel = less + 1 := by
  have long := (opens_compact legible).length_pos
  exact ⟨fuel - 1, by omega⟩

theorem readsBack_num (n : Numeral) : ReadsBack (.num n) := by
  intro depth fuel rest legible enough stops
  obtain ⟨fuel, rfl⟩ := exists_succ_of_enough legible enough
  have found := of_decide_eq_true legible
  obtain ⟨c, tail, whole, first⟩ := Numeral.eq_cons_of_read found
  have read := Numeral.read_append stops n.text.toList
  rw [found, Numeral.followedBy_some, List.nil_append, whole, List.cons_append] at read
  rw [compact, whole, List.cons_append, readValue_number first, read]
  rfl

theorem readsBack_str (s : String) : ReadsBack (.str s) := by
  intro depth fuel rest legible enough stops
  obtain ⟨fuel, rfl⟩ := exists_succ_of_enough legible enough
  rw [compact, toList_quoted, List.length_cons, List.length_append] at enough
  have short : (s.toList.flatMap escapeChar).length ≤ fuel := by omega
  simp [compact, toList_quoted, readValue, readText_quoted short, canonical]

theorem readItems_listed {items : List Json} (each : ∀ item ∈ items, ReadsBack item)
    (nonempty : items ≠ []) (depth fuel : Nat) (rest : List Char)
    (legible : areItemsLegible depth items = true)
    (enough : 2 * (listed (compactItems items)).length + 1 ≤ fuel) :
    readItems fuel depth (listed (compactItems items) ++ ']' :: rest) =
      some (canonicalItems items, rest) := by
  induction items generalizing fuel with
  | nil => exact absurd rfl nonempty
  | cons item items ih =>
    obtain ⟨fuel, rfl⟩ : ∃ less, fuel = less + 1 := ⟨fuel - 1, by omega⟩
    obtain ⟨first, later⟩ := List.forall_mem_cons.mp each
    obtain ⟨own, others⟩ := Bool.and_eq_true_iff.mp legible
    cases items with
    | nil =>
      rw [compactItems, compactItems, listed_singleton] at enough ⊢
      exact readItems_last (first depth fuel _ own (by omega) (Numeral.stops_cons rfl rest))
    | cons next items =>
      -- the comma pays for the step that takes one item off the list
      rw [compactItems, compactItems, listed_cons_cons, ← compactItems] at enough ⊢
      rw [List.length_append, List.length_cons] at enough
      rw [List.append_assoc, List.cons_append]
      exact readItems_more
        (first depth fuel _ own (by omega) (Numeral.stops_cons rfl _))
        ((opens_items (List.cons_ne_nil _ _) others).append _)
        (ih later (List.cons_ne_nil _ _) fuel others (by omega))

theorem readFields_listed {fields : List (String × Json)}
    (each : ∀ field ∈ fields, ReadsBack field.2) (nonempty : fields ≠ []) (depth fuel : Nat)
    (rest : List Char) (legible : areFieldsLegible depth fields = true)
    (enough : 2 * (listed (compactFields fields)).length + 1 ≤ fuel) :
    readFields fuel depth (listed (compactFields fields) ++ '\x7d' :: rest) =
      some (canonicalFields fields, rest) := by
  induction fields generalizing fuel with
  | nil => exact absurd rfl nonempty
  | cons field fields ih =>
    obtain ⟨key, value⟩ := field
    obtain ⟨fuel, rfl⟩ : ∃ less, fuel = less + 1 := ⟨fuel - 1, by omega⟩
    obtain ⟨first, later⟩ : ReadsBack value ∧ ∀ field ∈ fields, ReadsBack field.2 :=
      List.forall_mem_cons.mp each
    obtain ⟨own, others⟩ := Bool.and_eq_true_iff.mp legible
    have opens := opens_compact own
    cases fields with
    | nil =>
      rw [compactFields, compactFields, listed_singleton, toList_field] at enough ⊢
      simp only [List.length_cons, List.length_append] at enough
      have read := first depth fuel ('\x7d' :: rest) own (by omega)
        (Numeral.stops_cons rfl rest)
      simpa [canonicalFields] using readFields_last (by omega) (opens.append _) read
    | cons next fields =>
      obtain ⟨nextKey, nextValue⟩ := next
      rw [compactFields, compactFields, listed_cons_cons, ← compactFields, toList_field]
        at enough ⊢
      simp only [List.length_cons, List.length_append] at enough
      have read := first depth fuel
        (',' :: (listed (compactFields ((nextKey, nextValue) :: fields)) ++ '\x7d' :: rest))
        own (by omega) (Numeral.stops_cons rfl _)
      simpa [canonicalFields] using readFields_more (by omega) (opens.append _) read
        ((opens_fields (List.cons_ne_nil _ _)).append _)
        (ih later (List.cons_ne_nil _ _) fuel others (by omega))

theorem readsBack_arr {items : List Json} (each : ∀ item ∈ items, ReadsBack item) :
    ReadsBack (.arr items) := by
  intro depth fuel rest legible enough stops
  obtain ⟨fuel, rfl⟩ := exists_succ_of_enough legible enough
  obtain ⟨room, legible⟩ := Bool.and_eq_true_iff.mp legible
  have room : depth ≠ 0 := by simpa using room
  rw [toList_compact_arr, List.length_cons, List.length_append, List.length_singleton] at enough
  rw [toList_compact_arr, List.cons_append, List.append_assoc, List.singleton_append, canonical]
  by_cases empty : items = []
  · subst empty
    exact readValue_arr_nil room
  · exact readValue_arr room ((opens_items empty legible).append _)
      (readItems_listed each empty (depth - 1) fuel rest legible (by omega))

theorem readsBack_obj {fields : List (String × Json)} (each : ∀ field ∈ fields, ReadsBack field.2) :
    ReadsBack (.obj fields) := by
  intro depth fuel rest legible enough stops
  obtain ⟨fuel, rfl⟩ := exists_succ_of_enough legible enough
  obtain ⟨room, legible⟩ := Bool.and_eq_true_iff.mp legible
  have room : depth ≠ 0 := by simpa using room
  rw [toList_compact_obj, List.length_cons, List.length_append, List.length_singleton] at enough
  rw [toList_compact_obj, List.cons_append, List.append_assoc, List.singleton_append, canonical]
  by_cases empty : fields = []
  · subst empty
    exact readValue_obj_nil room
  · exact readValue_obj room ((opens_fields empty).append _)
      (readFields_listed each empty (depth - 1) fuel rest legible (by omega))

mutual
theorem readsBack : ∀ json : Json, ReadsBack json
  | .null => by
    intro depth fuel rest legible enough stops
    obtain ⟨fuel, rfl⟩ := exists_succ_of_enough legible enough
    rfl
  | .bool b => by
    intro depth fuel rest legible enough stops
    obtain ⟨fuel, rfl⟩ := exists_succ_of_enough legible enough
    cases b with
    | true => rfl
    | false => rfl
  | .num n => readsBack_num n
  | .str s => readsBack_str s
  | .arr items => readsBack_arr (readsBack_items items)
  | .obj fields => readsBack_obj (readsBack_fields fields)
termination_by structural json => json

theorem readsBack_items : ∀ items : List Json, ∀ item ∈ items, ReadsBack item
  | [] => fun _ mem => absurd mem List.not_mem_nil
  | item :: items => List.forall_mem_cons.mpr ⟨readsBack item, readsBack_items items⟩
termination_by structural items => items

theorem readsBack_fields : ∀ fields : List (String × Json), ∀ field ∈ fields, ReadsBack field.2
  | [] => fun _ mem => absurd mem List.not_mem_nil
  | (_, value) :: fields => List.forall_mem_cons.mpr ⟨readsBack value, readsBack_fields fields⟩
termination_by structural fields => fields
end

/-- A text that was written reads back as what it was written from. -/
theorem read?_compact {json : Json} (legible : json.isLegible maxDepth = true) :
    read? json.compact = some json.canonical := by
  have opens := opens_compact legible
  have read := readsBack json maxDepth (2 * json.compact.toList.length + 2) [] legible
    (Nat.le_add_right _ _) Numeral.stops_nil
  rw [List.append_nil] at read
  rw [read?, opens.skipSpace, read]
  rfl

-- written as 1.2345678901234567e+20, which is read as 1.2345678901234568e+20
example : (read? "123456789012345680000.5").map (isLegible maxDepth) = some false := by
  decide +kernel

end Json
end Liveboard
