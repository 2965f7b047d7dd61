/-
  Liveboard/Proofs/Cli/Commands.lean
  ==================================
  **The grammar of command lines.**

  A line that is not blank is a message for the chat, as it stands between the white space
  around it, or a command if that begins with a slash.  What follows the slash are words, and
  the commands are the sequences of words that `Written` lists.  Nothing else about a line
  counts: the words tell the command, or that there is none (`lines_follow_grammar`).
-/
import Liveboard.Cli.Input
import Liveboard.Proofs.Text.Words

namespace Liveboard.Cli.Input

variable {word line : String} {words : List String} {input : Input} {n : Nat}

/-! ### Message indices -/

/-- Digits, perhaps after a plus sign, and the number they denote in the unsigned 64-bit
    range. -/
structure Denotes (word : String) (n : Nat) : Prop where
  parts : ∃ sign digits, word.toList = sign ++ digits ∧ (sign = [] ∨ sign = ['+']) ∧
    digits ≠ [] ∧ (∀ c ∈ digits, c.isDigit = true) ∧ Nat.ofDigitChars 10 digits 0 = n
  fits : n < Number.unsignedLimit

theorem foldl_eq_ofDigitChars (digits : List Char) :
    digits.foldl (fun n c => n * 10 + (c.toNat - '0'.toNat)) 0 = Nat.ofDigitChars 10 digits 0 := by
  simp only [Nat.ofDigitChars, Nat.mul_comm]

/-- What the digits denote, if they are digits and it is in the range. -/
def numberOf? (digits : List Char) : Option Nat :=
  if !digits.isEmpty && digits.all Char.isDigit then
    if Nat.ofDigitChars 10 digits 0 < Number.unsignedLimit
    then some (Nat.ofDigitChars 10 digits 0) else none
  else none

theorem numberOf?_eq_some_iff {digits : List Char} :
    numberOf? digits = some n ↔ digits ≠ [] ∧ (∀ c ∈ digits, c.isDigit = true) ∧
      Nat.ofDigitChars 10 digits 0 = n ∧ n < Number.unsignedLimit := by
  simp only [numberOf?, Option.ite_none_right_eq_some, Option.some.injEq, Bool.and_eq_true,
    Bool.not_eq_true', List.isEmpty_eq_false_iff, List.all_eq_true, and_assoc]
  constructor
  · rintro ⟨some', all, fits, rfl⟩
    exact ⟨some', all, rfl, fits⟩
  · rintro ⟨some', all, rfl, fits⟩
    exact ⟨some', all, fits, rfl⟩

theorem indexOf?_of_plus {digits : List Char} (written : word.toList = '+' :: digits) :
    indexOf? word = numberOf? digits := by
  simp only [indexOf?, written, foldl_eq_ofDigitChars]
  rfl

theorem indexOf?_of_no_plus (other : ∀ digits, word.toList ≠ '+' :: digits) :
    indexOf? word = numberOf? word.toList := by
  cases written : word.toList with
  | nil =>
    simp only [indexOf?, written, foldl_eq_ofDigitChars]
    rfl
  | cons c digits =>
    have first : c ≠ '+' := fun plus => other digits (plus ▸ written)
    rw [numberOf?, ← foldl_eq_ofDigitChars]
    simp [indexOf?, written, first]

theorem indexOf?_eq_some_iff : indexOf? word = some n ↔ Denotes word n := by
  constructor
  · intro found
    by_cases plus : ∃ digits, word.toList = '+' :: digits
    · obtain ⟨digits, written⟩ := plus
      rw [indexOf?_of_plus written] at found
      obtain ⟨some', all, value, fits⟩ := numberOf?_eq_some_iff.mp found
      exact ⟨⟨['+'], digits, written, .inr rfl, some', all, value⟩, fits⟩
    · rw [indexOf?_of_no_plus (not_exists.mp plus)] at found
      obtain ⟨some', all, value, fits⟩ := numberOf?_eq_some_iff.mp found
      exact ⟨⟨[], word.toList, rfl, .inl rfl, some', all, value⟩, fits⟩
  · rintro ⟨⟨sign, digits, written, rfl | rfl, some', all, value⟩, fits⟩
    · have other : ∀ later, word.toList ≠ '+' :: later := by
        intro later plus
        rw [List.nil_append] at written
        have digit := all '+' (by rw [← written, plus]; exact List.mem_cons_self)
        exact absurd digit (by decide)
      rw [indexOf?_of_no_plus other, written, List.nil_append]
      exact numberOf?_eq_some_iff.mpr ⟨some', all, value, fits⟩
    · rw [indexOf?_of_plus written]
      exact numberOf?_eq_some_iff.mpr ⟨some', all, value, fits⟩

/-! ### Words of commands -/

/-- The command is written with these words. -/
inductive Written : List String → Input → Prop where
  | new : Written ["new"] new
  | load (chatId : String) : Written ["load", chatId] (load chatId)
  | history : Written ["history"] history
  | saved : Written ["saved"] saved
  | save {word : String} {index : Nat} (denotes : Denotes word index) :
    Written ["save", word] (save index)
  | delete (componentId : String) : Written ["delete", componentId] (delete componentId)
  | combine (componentIds : List String) (several : 2 ≤ componentIds.length) :
    Written ("combine" :: componentIds) (combine componentIds)
  | condense : Written ["condense"] condense
  | agents : Written ["agents"] agents
  | quit : Written ["quit"] quit
  | exit : Written ["exit"] quit

/-- What is said of words that make up no command. -/
def refusal (command : String) : List String → String
  | ["save", word] => "not a message index: " ++ word
  | _ => "unknown command: /" ++ command

theorem refusal_of_ne {command : String} (other : ∀ word, words ≠ ["save", word]) :
    refusal command words = "unknown command: /" ++ command := by
  unfold refusal
  split
  · next word => exact absurd rfl (other word)
  · rfl

def isCommand : Input → Bool
  | chat _ | empty | invalid _ => false
  | _ => true

theorem isCommand_of_written (written : Written words input) : input.isCommand = true := by
  cases written <;> rfl

/-- The words of a command tell it. -/
theorem ofWords?_of_written (written : Written words input) : ofWords? words = some input := by
  cases written with
  | save denotes => simp only [ofWords?, indexOf?_eq_some_iff.mpr denotes]
  | combine componentIds several =>
    match componentIds, several with
    | first :: second :: rest, _ => rfl
  | _ => rfl

theorem written_or_refused (command : String) (words : List String) :
    (∃ input, Written words input) ∨
      (ofWords? words).getD (invalid ("unknown command: /" ++ command)) =
        invalid (refusal command words) := by
  unfold ofWords?
  split
  · exact .inl ⟨_, .new⟩
  · exact .inl ⟨_, .load _⟩
  · exact .inl ⟨_, .history⟩
  · exact .inl ⟨_, .saved⟩
  · next word =>
    split
    · next index found => exact .inl ⟨_, .save (indexOf?_eq_some_iff.mp found)⟩
    · exact .inr rfl
  · exact .inl ⟨_, .delete _⟩
  · exact .inl ⟨_, .combine _ (by simp)⟩
  · exact .inl ⟨_, .condense⟩
  · exact .inl ⟨_, .agents⟩
  · exact .inl ⟨_, .quit⟩
  · exact .inl ⟨_, .exit⟩
  · rw [refusal_of_ne ‹∀ word, words = ["save", word] → False›]
    exact .inr rfl

/-! ### Lines -/

theorem parse_of_blank (blank : ∀ c ∈ line.toList, Text.isBlank c = true) : parse line = empty := by
  rw [parse, Text.trim_eq_iff.mpr (Text.bears_nil_iff.mpr blank)]

theorem parse_of_text {text : List Char} (bears : Text.Bears line.toList text)
    (some' : text ≠ []) (plain : text.head? ≠ some '/') : parse line = chat (String.ofList text) := by
  rw [parse, Text.trim_eq_iff.mpr bears]
  cases text with
  | nil => exact absurd rfl some'
  | cons c text =>
    split
    · next nothing => cases nothing
    · next command slash =>
      cases slash
      exact absurd rfl plain
    · rfl

variable {command : List Char}

theorem parse_of_slash (bears : Text.Bears line.toList ('/' :: command))
    (spells : Text.Spells command (words.map String.toList)) :
    parse line =
      (ofWords? words).getD (invalid ("unknown command: /" ++ String.ofList command)) := by
  have strings : (words.map String.toList).map String.ofList = words := by
    simp [List.map_map, Function.comp_def]
  rw [parse, Text.trim_eq_iff.mpr bears]
  simp only [Text.words_eq_iff.mpr spells, strings]

/-- The three kinds of lines. -/
theorem line_cases (line : String) :
    (∀ c ∈ line.toList, Text.isBlank c = true) ∨
    (∃ text, Text.Bears line.toList text ∧ text ≠ [] ∧ text.head? ≠ some '/') ∨
    ∃ (command : List Char) (words : List String),
      Text.Bears line.toList ('/' :: command) ∧
        Text.Spells command (words.map String.toList) := by
  have bears := Text.bears_trim line.toList
  generalize Text.trim line.toList = text at bears
  by_cases slash : text.head? = some '/'
  · obtain ⟨command, rfl⟩ := List.head?_eq_some_iff.mp slash
    obtain ⟨ws, spells⟩ := Text.exists_spells command
    have characters : (ws.map String.ofList).map String.toList = ws := by
      simp [List.map_map, Function.comp_def]
    exact .inr (.inr ⟨command, ws.map String.ofList, bears, characters.symm ▸ spells⟩)
  · cases text with
    | nil => exact .inl (Text.bears_nil_iff.mp bears)
    | cons c text => exact .inr (.inl ⟨c :: text, bears, List.cons_ne_nil c text, slash⟩)

/-- What comes of a command line: a command that is written with its words, or a refusal. -/
theorem parse_of_slash_cases (bears : Text.Bears line.toList ('/' :: command))
    (spells : Text.Spells command (words.map String.toList)) :
    Written words (parse line) ∨
      (∀ input, ¬Written words input) ∧
        parse line = invalid (refusal (String.ofList command) words) := by
  rw [parse_of_slash bears spells]
  by_cases written : ∃ input, Written words input
  · obtain ⟨input, written⟩ := written
    rw [ofWords?_of_written written]
    exact .inl written
  · exact .inr ⟨not_exists.mp written,
      (written_or_refused (String.ofList command) words).resolve_left written⟩

theorem parse_eq_empty_iff (line : String) :
    parse line = empty ↔ ∀ c ∈ line.toList, Text.isBlank c = true := by
  refine ⟨fun parsed => ?_, parse_of_blank⟩
  rcases line_cases line with blank | ⟨text, bears, some', plain⟩ | ⟨command, words, bears, spells⟩
  · exact blank
  · rw [parse_of_text bears some' plain] at parsed
    cases parsed
  · rcases parse_of_slash_cases bears spells with written | ⟨-, refused⟩
    · rw [parsed] at written
      cases written
    · rw [refused] at parsed
      cases parsed

theorem parse_eq_chat_iff (line text : String) :
    parse line = chat text ↔
      Text.Bears line.toList text.toList ∧ text ≠ "" ∧ text.toList.head? ≠ some '/' := by
  constructor
  · intro parsed
    rcases line_cases line with blank | ⟨text', bears, some', plain⟩ | ⟨command, words, bears, spells⟩
    · rw [parse_of_blank blank] at parsed
      cases parsed
    · rw [parse_of_text bears some' plain] at parsed
      obtain rfl : String.ofList text' = text := chat.inj parsed
      rw [String.toList_ofList]
      exact ⟨bears, fun nothing => some' (String.ofList_eq_empty_iff.mp nothing), plain⟩
    · rcases parse_of_slash_cases bears spells with written | ⟨-, refused⟩
      · rw [parsed] at written
        cases written
      · rw [refused] at parsed
        cases parsed
  · rintro ⟨bears, some', plain⟩
    have characters : text.toList ≠ [] := by
      intro nothing
      exact some' (String.toList_eq_nil_iff.mp nothing)
    rw [parse_of_text bears characters plain, String.ofList_toList]

theorem written_iff (bears : Text.Bears line.toList ('/' :: command))
    (spells : Text.Spells command (words.map String.toList)) (input : Input) :
    parse line = input ∧ input.isCommand = true ↔ Written words input := by
  constructor
  · rintro ⟨rfl, good⟩
    rcases parse_of_slash_cases bears spells with written | ⟨-, refused⟩
    · exact written
    · rw [refused] at good
      cases good
  · intro written
    refine ⟨?_, isCommand_of_written written⟩
    rw [parse_of_slash bears spells, ofWords?_of_written written]
    rfl

/-- White space around a written command goes, and nothing else of it. -/
theorem exists_bears_slash {before text : List Char} {ws : List (List Char)}
    (blank : ∀ c ∈ before, Text.isBlank c = true) (spells : Text.Spells text ws) :
    ∃ command, Text.Bears (before ++ '/' :: text) ('/' :: command) ∧ Text.Spells command ws := by
  obtain ⟨after, whole, right⟩ := Text.exists_trimRight_blank ('/' :: text)
  have last := Text.last_trimRight ('/' :: text)
  cases kept : Text.trimRight ('/' :: text) with
  | nil =>
    rw [kept, List.nil_append] at whole
    have slash := right '/' (whole ▸ List.mem_cons_self)
    exact absurd slash (by decide)
  | cons c command =>
    rw [kept] at whole last
    obtain ⟨rfl, rfl⟩ := List.cons.inj whole
    refine ⟨command, ⟨⟨before, after, ?_, blank, right⟩, ?_, last⟩, ?_⟩
    · simp
    · intro d first
      cases first
      decide
    · obtain ⟨ws', spells'⟩ := Text.exists_spells command
      have same : ws' = ws :=
        (Text.words_of_spells (spells'.append_blank right)).symm.trans (Text.words_of_spells spells)
      exact same ▸ spells'

/-- A line is empty if it is blank, a message as it stands between white space if that does not
    begin with a slash, and otherwise what its words after the slash make up: the command that is
    written with them, which keeps its arguments, or nothing.  So a command that is written with
    any white space around and between its words, and any words for arguments, reads as that
    command. -/
theorem lines_follow_grammar :
    (∀ line, parse line = empty ↔ ∀ c ∈ line.toList, Text.isBlank c = true) ∧
    (∀ line text, parse line = chat text ↔
      Text.Bears line.toList text.toList ∧ text ≠ "" ∧ text.toList.head? ≠ some '/') ∧
    (∀ (line : String) (command : List Char) (words : List String),
      Text.Bears line.toList ('/' :: command) → Text.Spells command (words.map String.toList) →
      (∀ input, parse line = input ∧ input.isCommand = true ↔ Written words input) ∧
      ((∀ input, ¬Written words input) →
        parse line = invalid (refusal (String.ofList command) words))) ∧
    (∀ (words : List String) (input : Input), Written words input → ∀ before text : List Char,
      (∀ c ∈ before, Text.isBlank c = true) → Text.Spells text (words.map String.toList) →
      parse (String.ofList (before ++ '/' :: text)) = input) := by
  refine ⟨parse_eq_empty_iff, parse_eq_chat_iff, fun line command words bears spells =>
    ⟨written_iff bears spells, fun none => ?_⟩, fun words input written before text blank spells => ?_⟩
  · rcases parse_of_slash_cases bears spells with written | ⟨-, refused⟩
    · exact absurd written (none _)
    · exact refused
  · obtain ⟨command, bears, spells⟩ := exists_bears_slash blank spells
    rw [← String.toList_ofList (l := before ++ '/' :: text)] at bears
    exact ((written_iff bears spells input).mpr written).1

/-- A combination with all kinds of white space in it, one word of which begins with a slash. -/
def spacedCombination : List Char := " \tcombine\u00a0a  /b\u3000 ".toList

/-- The least number that is no index, between white space. -/
def overflowingLine : String := " /save\t18446744073709551616 "

theorem lines_follow_grammar_spaced :
    Written ["combine", "a", "/b"] (combine ["a", "/b"]) ∧
      Text.Spells spacedCombination (["combine", "a", "/b"].map String.toList) ∧
      parse (String.ofList ([' '] ++ '/' :: spacedCombination)) = combine ["a", "/b"] ∧
      (∀ input, ¬Written ["save", "18446744073709551616"] input) ∧
      parse overflowingLine = invalid "not a message index: 18446744073709551616" := by
  obtain ⟨-, -, read, spoken⟩ := lines_follow_grammar
  have written : Written ["combine", "a", "/b"] (combine ["a", "/b"]) :=
    .combine ["a", "/b"] (by decide)
  have spells : Text.Spells spacedCombination (["combine", "a", "/b"].map String.toList) :=
    Text.words_eq_iff.mp (by decide +kernel)
  have refused : ofWords? ["save", "18446744073709551616"] =
      some (invalid "not a message index: 18446744073709551616") := by
    decide +kernel
  have unwritten : ∀ input, ¬Written ["save", "18446744073709551616"] input := by
    intro input written
    have good := isCommand_of_written written
    rw [Option.some.inj ((ofWords?_of_written written).symm.trans refused)] at good
    cases good
  have bears : Text.Bears overflowingLine.toList ('/' :: "save\t18446744073709551616".toList) :=
    Text.trim_eq_iff.mp (by decide +kernel)
  have spells' : Text.Spells "save\t18446744073709551616".toList
      (["save", "18446744073709551616"].map String.toList) :=
    Text.words_eq_iff.mp (by decide +kernel)
  have blank : ∀ c ∈ [' '], Text.isBlank c = true := List.forall_mem_singleton.mpr rfl
  exact ⟨written, spells, spoken _ _ written [' '] spacedCombination blank spells, unwritten,
    (read _ _ _ bears spells').2 unwritten⟩

end Liveboard.Cli.Input
