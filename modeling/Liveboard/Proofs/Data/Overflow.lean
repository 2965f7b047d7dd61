/-
  Liveboard/Proofs/Data/Overflow.lean
  ===================================
  **What a checked build panics over.**

  The one computation in the decoding of a frame that may overflow is that of the size of a
  timestamp.  Chats and stored components have a timestamp among their fields, and a frame may
  hold many of either.  A build without checks decodes all of them, so `Frame.parse` is what it
  reads (`Frame.read_unchecked`).  A checked build panics over a chat or a component that the
  other one reads exactly if the timestamp in it overflows (`Chat.read_eq_panic_iff`,
  `SavedComponent.read_eq_panic_iff`).
-/
import Liveboard.Proofs.Json.Printing
import Liveboard.Proofs.Json.Verdicts
import Liveboard.Proofs.Time.Counts
import Liveboard.Wire.Frame

namespace Liveboard

open Time

variable {build : Build} {json : Json}

/-! ### Records with a timestamp -/

/-- The record that a value denotes holds another value in this field, whatever its spelling. -/
def Shape.Holds (shape : Shape) (json : Json) (name : String) (value : Json) : Prop :=
  ∃ record, shape.record? json = some record ∧ Fields.get? record name = some value

/-- Of the fields of a record only this one, a timestamp, can make the program panic. -/
structure Stamped (build : Build) (stamp : String) (judge : String → Json → Verdict) : Prop where
  timestamp : ∀ value, judge stamp value = .ofComputed (Instant.read build value)
  others : ∀ name value, name ≠ stamp → judge name value ≠ .panic

namespace Stamped

variable {stamp : String} {judge : String → Json → Verdict}

theorem eq_panic_iff (stamped : Stamped build stamp judge) {name : String} {value : Json} :
    judge name value = .panic ↔ name = stamp ∧ build = .checked ∧ Overflows value := by
  by_cases same : name = stamp
  · rw [same, stamped.timestamp, Verdict.ofComputed_eq_panic_iff, Instant.read_eq_panic_iff,
      eq_self_iff_true, true_and]
  · exact iff_of_false (stamped.others name value same) fun both => same both.1

/-- Where no field is refused, the timestamp decides. -/
theorem verdict_eq_panic_iff (stamped : Stamped build stamp judge) {shape : Shape}
    {record : Fields} (distinct : (shape.map (·.name)).Nodup)
    (found : shape.record? json = some record)
    (accepts : ∀ name value, Fields.get? record name = some value → judge name value ≠ .refused) :
    shape.verdict judge json = .panic ↔
      build = .checked ∧ ∃ value, shape.Holds json stamp value ∧ Overflows value := by
  rw [Shape.verdict_eq_panic_iff distinct found accepts]
  constructor
  · rintro ⟨name, value, held, panics⟩
    obtain ⟨rfl, checked, overflows⟩ := stamped.eq_panic_iff.mp panics
    exact ⟨checked, value, ⟨record, found, held⟩, overflows⟩
  · rintro ⟨checked, value, ⟨other, found', held⟩, overflows⟩
    rw [found, Option.some.injEq] at found'
    subst found'
    exact ⟨stamp, value, held, stamped.eq_panic_iff.mpr ⟨rfl, checked, overflows⟩⟩

theorem ne_panic (stamped : Stamped .unchecked stamp judge) (name : String) (value : Json) :
    judge name value ≠ .panic := by
  intro panics
  obtain ⟨-, checked, -⟩ := stamped.eq_panic_iff.mp panics
  nomatch checked

end Stamped

namespace Chat

theorem stamped (build : Build) : Stamped build "updated_at" (judge build) where
  timestamp _ := rfl
  others name value other := by
    unfold judge
    split
    · exact Verdict.ofOption_ne_panic _
    · exact Verdict.ofNullable_ne_panic _ _
    · exact absurd rfl other
    · exact Verdict.ofNullable_ne_panic _ _
    · nofun

/-- A checked build panics over a chat exactly if its timestamp overflows. -/
theorem read_eq_panic_iff {chat : Chat} (reads : ofJson? json = some chat) :
    read build json = .panic ↔
      build = .checked ∧ ∃ value, shape.Holds json "updated_at" value ∧ Overflows value := by
  have fields := reads
  obtain ⟨record, found, fields⟩ := Option.bind_eq_some_iff.mp fields
  obtain ⟨id, named, fields⟩ := Option.bind_eq_some_iff.mp fields
  obtain ⟨title, titled, fields⟩ := Option.bind_eq_some_iff.mp fields
  obtain ⟨updatedAt, -, fields⟩ := Option.bind_eq_some_iff.mp fields
  obtain ⟨hasSaved, flagged, -⟩ := Option.bind_eq_some_iff.mp fields
  rw [read, Verdict.conclude_eq_panic_iff, verdict, reads, Verdict.ofOption_some,
    Verdict.andThen_accepted]
  apply (stamped build).verdict_eq_panic_iff (by decide) found
  intro name value held
  unfold judge
  split
  · exact Verdict.ofOption_of_required? named held
  · exact Verdict.ofNullable_of_nullable? titled held
  · exact Verdict.ofComputed_ne_refused _
  · exact Verdict.ofNullable_of_nullable? flagged held
  · nofun

theorem verdict_unchecked_ne_panic (json : Json) : verdict .unchecked json ≠ .panic := by
  apply Verdict.andThen_ne_panic
  · exact Shape.verdict_ne_panic (stamped .unchecked).ne_panic json
  · exact Verdict.ofOption_ne_panic _

@[simp] theorem read_unchecked (json : Json) : read .unchecked json = .value (ofJson? json) :=
  Verdict.conclude_of_ne_panic (verdict_unchecked_ne_panic json)

end Chat

namespace SavedComponent

theorem stamped (build : Build) : Stamped build "created_at" (judge build) where
  timestamp _ := rfl
  others name value other := by
    unfold judge
    split
    · exact Verdict.ofOption_ne_panic _
    · exact Verdict.ofOption_ne_panic _
    · exact Verdict.ofOption_ne_panic _
    · exact Verdict.ofOption_ne_panic _
    · exact Verdict.ofNullable_ne_panic _ _
    · exact absurd rfl other
    · nofun

/-- A checked build panics over a stored component exactly if its timestamp overflows. -/
theorem read_eq_panic_iff {saved : SavedComponent} (reads : ofJson? json = some saved) :
    read build json = .panic ↔
      build = .checked ∧ ∃ value, shape.Holds json "created_at" value ∧ Overflows value := by
  have fields := reads
  obtain ⟨record, found, fields⟩ := Option.bind_eq_some_iff.mp fields
  obtain ⟨id, named, fields⟩ := Option.bind_eq_some_iff.mp fields
  obtain ⟨chatId, placed, fields⟩ := Option.bind_eq_some_iff.mp fields
  obtain ⟨component, drawn, fields⟩ := Option.bind_eq_some_iff.mp fields
  obtain ⟨kindName, typed, fields⟩ := Option.bind_eq_some_iff.mp fields
  obtain ⟨title, titled, -⟩ := Option.bind_eq_some_iff.mp fields
  rw [read, Verdict.conclude_eq_panic_iff, verdict, reads, Verdict.ofOption_some,
    Verdict.andThen_accepted]
  apply (stamped build).verdict_eq_panic_iff (by decide) found
  intro name value held
  unfold judge
  split
  · exact Verdict.ofOption_of_required? named held
  · exact Verdict.ofOption_of_required? placed held
  · exact Verdict.ofOption_of_required? typed held
  · exact Verdict.ofOption_of_required? drawn held
  · exact Verdict.ofNullable_of_nullable? titled held
  · exact Verdict.ofComputed_ne_refused _
  · nofun

theorem verdict_unchecked_ne_panic (json : Json) : verdict .unchecked json ≠ .panic := by
  apply Verdict.andThen_ne_panic
  · exact Shape.verdict_ne_panic (stamped .unchecked).ne_panic json
  · exact Verdict.ofOption_ne_panic _

@[simp] theorem read_unchecked (json : Json) : read .unchecked json = .value (ofJson? json) :=
  Verdict.conclude_of_ne_panic (verdict_unchecked_ne_panic json)

end SavedComponent

/-! ### Frames -/

namespace Frame

theorem verdict_unchecked_ne_panic (json : Json) : verdict .unchecked json ≠ .panic := by
  have saved := Verdict.ofList_ne_panic SavedComponent.verdict_unchecked_ne_panic
  unfold verdict
  split
  · split
    · apply Shape.verdict_ne_panic
      intro name value
      unfold judge
      split
      · exact Verdict.ofList_ne_panic Chat.verdict_unchecked_ne_panic value
      · exact saved value
      · exact SavedComponent.verdict_unchecked_ne_panic value
      · exact Verdict.ofOption_ne_panic _
      · exact saved value
      · nofun
    · nofun
  · nofun

/-- Without checks, the frame that is read is the one that a session goes by. -/
@[simp] theorem read_unchecked (text : String) : read .unchecked text = .value (parse text) := by
  unfold read
  split
  · next panics =>
    obtain ⟨json, -, panics⟩ := Option.map_eq_some_iff.mp panics
    exact absurd panics (verdict_unchecked_ne_panic json)
  · rfl

end Frame

/-! ### All of it -/

/-- **A timestamp is read by its size, unless its size overflows.**  A build panics over a value
    in a timestamp field exactly if it checks its arithmetic and the value is a number that is
    not above the least count; then it panics over every chat and every stored component with
    such a timestamp, and over no other that can be read.  Whatever it does not panic over it
    reads as a timestamp or as none, and every number by its true size. -/
theorem timestamps_read_unless_overflow (build : Build) (json : Json) :
    (Instant.read build json = .panic ↔ build = .checked ∧ Overflows json) ∧
    (Instant.read build json ≠ .panic →
      Instant.read build json = .value (Instant.ofJson? json)) ∧
    (∀ numeral, json = .num numeral → IsReadBySize build numeral) ∧
    (∀ chat, Chat.ofJson? json = some chat →
      (Chat.read build json = .panic ↔ build = .checked ∧
        ∃ value, Chat.shape.Holds json "updated_at" value ∧ Overflows value)) ∧
    (∀ saved, SavedComponent.ofJson? json = some saved →
      (SavedComponent.read build json = .panic ↔ build = .checked ∧
        ∃ value, SavedComponent.shape.Holds json "created_at" value ∧ Overflows value)) := by
  refine ⟨Instant.read_eq_panic_iff build json, Instant.read_of_ne_panic, ?_, ?_, ?_⟩
  · intro numeral _
    exact isReadBySize build numeral
  · intro chat reads
    exact Chat.read_eq_panic_iff reads
  · intro saved reads
    exact SavedComponent.read_eq_panic_iff reads

/-- A chat with the least count for its timestamp: there is no size for it, and a checked build
    panics where one without checks reads no timestamp. -/
theorem least_count_panics :
    let text := "\x7b\"id\":\"c\",\"updated_at\":-9223372036854775808\x7d"
    let least : Numeral := .integer (-9223372036854775808)
    ∃ json, Json.read? text = some json ∧
      Chat.shape.Holds json "updated_at" (.num least) ∧
      Chat.read .unchecked json = .value (some ⟨"c", "", none, false⟩) ∧
      Chat.read .checked json = .panic ∧
      Instant.read .checked (.num least) = .panic ∧
      ¬∃ size, Build.checked.abs (countOf least) = .value size ∧
        size.toInt = (clampedCount least).natAbs := by
  intro text least
  let json : Json := .obj [("id", .str "c"), ("updated_at", .num least)]
  have written : json.compact = text := by decide +kernel
  have denoted : Json.read? text = some json := by
    rw [← written]
    exact Json.read?_compact (by decide +kernel)
  have held : Chat.shape.Holds json "updated_at" (.num least) := ⟨_, rfl, rfl⟩
  have nothing : Instant.ofJson? (.num least) = none := by decide +kernel
  have reads : Chat.ofJson? json = some ⟨"c", "", none, false⟩ := by
    rw [← nothing]
    rfl
  have overflows : Overflows (.num least) := ⟨least, rfl, by decide⟩
  obtain ⟨-, -, -, chats, -⟩ := timestamps_read_unless_overflow .checked json
  obtain ⟨panics, -, bySize, -, -⟩ := timestamps_read_unless_overflow .checked (.num least)
  refine ⟨json, denoted, held, ?_, ?_, ?_, ?_⟩
  · rw [Chat.read_unchecked, reads]
  · exact (chats _ reads).mpr ⟨rfl, _, held, overflows⟩
  · exact panics.mpr ⟨rfl, overflows⟩
  · rw [(bySize least rfl).exact]
    decide

end Liveboard
