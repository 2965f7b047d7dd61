/-
  Liveboard/Proofs/Wire/Dispatch.lean
  ===================================
  **What decides how a frame is read.**

  The members of an object are the fields as its text gives them, repeated keys and all
  (`Json.members?`).  The last string under `type` is the type of a text (`Frame.typeIn?`), and
  the type alone decides what becomes of the text: nothing is missing but a type, nothing is
  unknown but a type, and a known type leads to a frame of that type or to a body that does not
  fit (`texts_are_dispatched_by_type`).

  That rests on the three tables of types being one: the types that are known, the types that
  frames carry, and the types for which a body can be read (`mem_knownTypes_iff_typeName`,
  `mem_knownTypes_iff_readable`).
-/
import Liveboard.Proofs.Json.Records
import Liveboard.Session.Board

namespace Liveboard

namespace Fields

/-- Of the entries under one key the last one counts. -/
theorem get?_ofList_eq_reverse (entries : List (String × Json)) (key : String) :
    get? (ofList entries) key = get? entries.reverse key := by
  induction entries with
  | nil => rfl
  | cons entry entries ih =>
    have alone : get? (ofList [entry]) key = get? [entry] key := by
      simp only [ofList, List.foldl_cons, List.foldl_nil, insert]
    rw [← List.singleton_append, get?_ofList_append, ih, alone, List.singleton_append,
      List.reverse_cons, get?_append]

end Fields

/-! ### The members of a text -/

namespace Json

variable {text : String} {json : Json} {fields : Fields}

/-- The fields after an opening brace, in the order of the text and as often as they are
    given, and the text after the closing one. -/
def readMembers (fuel : Nat) (cs : List Char) : Option (List (String × Json) × List Char) :=
  match skipSpace cs with
  | '\x7d' :: rest => some ([], rest)
  | inside => readFields fuel (maxDepth - 1) inside

/-- What was read, if nothing but white space comes after it. -/
def atEnd? {α : Type} (read : α × List Char) : Option α :=
  if (skipSpace read.2).isEmpty then some read.1 else none

/-- The members of the object that a text denotes. -/
def members? (text : String) : Option (List (String × Json)) :=
  match skipSpace text.toList with
  | '\x7b' :: cs => (readMembers (2 * cs.length + 3) cs).bind atEnd?
  | _ => none

theorem readMembers_of_unclosed {cs : List Char}
    (unclosed : ∀ rest, skipSpace cs ≠ '\x7d' :: rest) (fuel : Nat) :
    readMembers fuel cs = readFields fuel (maxDepth - 1) (skipSpace cs) := by
  rw [readMembers]
  split
  · next rest closed => exact absurd closed (unclosed rest)
  · rfl

theorem readValue_brace (fuel : Nat) (cs : List Char) :
    readValue (fuel + 1) maxDepth ('\x7b' :: cs) =
      (readMembers fuel cs).map fun read => (.obj (Fields.ofList read.1), read.2) := by
  have room : maxDepth ≠ 0 := by decide
  rw [readValue, if_neg room]
  split
  · next rest closed =>
    rw [readMembers, closed]
    rfl
  · next unclosed =>
    rw [readMembers_of_unclosed unclosed]
    cases readFields fuel (maxDepth - 1) (skipSpace cs) <;> rfl

theorem read?_eq (text : String) :
    read? text = (readValue (2 * (skipSpace text.toList).length + 2) maxDepth
      (skipSpace text.toList)).bind atEnd? := by
  rw [read?]
  cases readValue (2 * (skipSpace text.toList).length + 2) maxDepth (skipSpace text.toList) with
  | none => rfl
  | some found => rfl

/-- Only a text that opens with a brace denotes an object. -/
theorem exists_cons_of_readValue_obj {fuel depth : Nat} {cs rest : List Char}
    (read : readValue fuel depth cs = some (.obj fields, rest)) : ∃ inside, cs = '\x7b' :: inside := by
  cases fuel with
  | zero => cases read
  | succ fuel =>
    simp only [readValue] at read
    split at read
    · cases read
    · cases read
    · cases read
    · obtain ⟨_, _, read⟩ := Option.bind_eq_some_iff.mp read
      cases read
    · split at read
      · cases read
      · split at read
        · cases read
        · obtain ⟨_, _, read⟩ := Option.bind_eq_some_iff.mp read
          cases read
    · exact ⟨_, rfl⟩
    · obtain ⟨_, _, read⟩ := Option.bind_eq_some_iff.mp read
      cases read

/-- An object is read by its members: the last of several under one key counts. -/
theorem read?_eq_obj_iff :
    read? text = some (.obj fields) ↔ (members? text).map Fields.ofList = some fields := by
  rw [read?_eq, members?]
  generalize skipSpace text.toList = cs
  split
  · next inside =>
    rw [List.length_cons, readValue_brace]
    cases readMembers (2 * inside.length + 3) inside with
    | none => simp
    | some read =>
      by_cases done : (skipSpace read.2).isEmpty = true <;> simp [atEnd?, done]
  · next other =>
    refine ⟨fun read => ?_, fun none => by cases none⟩
    obtain ⟨⟨value, rest⟩, read, done⟩ := Option.bind_eq_some_iff.mp read
    rw [atEnd?, Option.ite_none_right_eq_some] at done
    obtain rfl : value = .obj fields := Option.some.inj done.2
    obtain ⟨inside, brace⟩ := exists_cons_of_readValue_obj read
    exact absurd brace (other inside)

end Json

/-! ### The types of frames -/

namespace Frame

variable {name text : String} {frame : Frame} {fields record : Fields}

def isUnknown : Frame → Bool
  | unknown _ => true
  | _ => false

/-- The frame has the type, and it is one that this client knows. -/
def IsOf (frame : Frame) (name : String) : Prop := frame.typeName = name ∧ frame.isUnknown = false

theorem mem_knownTypes_of_isOf (of : frame.IsOf name) : name ∈ knownTypes := by
  obtain ⟨rfl, known⟩ := of
  cases frame with
  | unknown name => cases known
  | _ => simp [typeName, knownTypes]

theorem isOf_of_map {α : Type} {make : α → Frame} {found : Option α}
    (made : ∀ a, (make a).IsOf name) (read : make <$> found = some frame) : frame.IsOf name := by
  obtain ⟨a, -, rfl⟩ := Option.map_eq_some_iff.mp read
  exact made a

/-- What is read for a type is of that type. -/
theorem isOf_of_ofRecord? (read : ofRecord? name record = some frame) : frame.IsOf name := by
  unfold ofRecord? at read
  -- a case per type, the pairs of fields among them being read one after the other
  split at read
  · exact isOf_of_map (fun _ => ⟨rfl, rfl⟩) read
  · exact isOf_of_map (fun _ => ⟨rfl, rfl⟩) read
  · exact isOf_of_map (fun _ => ⟨rfl, rfl⟩) read
  · obtain ⟨_, _, read⟩ := Option.bind_eq_some_iff.mp read
    obtain ⟨_, _, read⟩ := Option.bind_eq_some_iff.mp read
    cases read
    exact ⟨rfl, rfl⟩
  · exact isOf_of_map (fun _ => ⟨rfl, rfl⟩) read
  · exact isOf_of_map (fun _ => ⟨rfl, rfl⟩) read
  · exact isOf_of_map (fun _ => ⟨rfl, rfl⟩) read
  · exact isOf_of_map (fun _ => ⟨rfl, rfl⟩) read
  · exact isOf_of_map (fun _ => ⟨rfl, rfl⟩) read
  · obtain ⟨_, _, read⟩ := Option.bind_eq_some_iff.mp read
    obtain ⟨_, _, read⟩ := Option.bind_eq_some_iff.mp read
    cases read
    exact ⟨rfl, rfl⟩
  · exact isOf_of_map (fun _ => ⟨rfl, rfl⟩) read
  · exact isOf_of_map (fun _ => ⟨rfl, rfl⟩) read
  · exact isOf_of_map (fun _ => ⟨rfl, rfl⟩) read
  · exact isOf_of_map (fun _ => ⟨rfl, rfl⟩) read
  · exact isOf_of_map (fun _ => ⟨rfl, rfl⟩) read
  · exact isOf_of_map (fun _ => ⟨rfl, rfl⟩) read
  · exact isOf_of_map (fun _ => ⟨rfl, rfl⟩) read
  · exact isOf_of_map (fun _ => ⟨rfl, rfl⟩) read
  · cases read

theorem isOf_of_ofFields? (read : ofFields? name fields = some frame) : frame.IsOf name := by
  obtain ⟨record, -, read⟩ := Option.bind_eq_some_iff.mp read
  exact isOf_of_ofRecord? read

/-- Enough for a body of any type. -/
def anyBody : Fields :=
  let component := Json.obj [("kind", .str "metric")]
  [("agent", .obj [("id", .str "a")]), ("chat_id", .str "c"),
   ("component", .obj [("id", .str "s"), ("chat_id", .str "c"), ("component_data", component),
     ("component_type", .str "metric")]),
   ("component_id", .str "s"), ("status", .str "idle")]

theorem isSome_ofFields?_anyBody (known : name ∈ knownTypes) :
    (ofFields? name anyBody).isSome = true := by
  have each : knownTypes.all (fun name => (ofFields? name anyBody).isSome) = true := by
    decide +kernel
  exact List.all_eq_true.mp each name known

/-- The types that are known are those for which a body can be read. -/
theorem mem_knownTypes_iff_readable :
    name ∈ knownTypes ↔ ∃ fields frame, ofFields? name fields = some frame := by
  constructor
  · intro known
    obtain ⟨frame, read⟩ := Option.isSome_iff_exists.mp (isSome_ofFields?_anyBody known)
    exact ⟨anyBody, frame, read⟩
  · rintro ⟨fields, frame, read⟩
    exact mem_knownTypes_of_isOf (isOf_of_ofFields? read)

/-- The types that are known are those that frames have, unknown ones apart. -/
theorem mem_knownTypes_iff_exists_isOf : name ∈ knownTypes ↔ ∃ frame : Frame, frame.IsOf name := by
  constructor
  · intro known
    obtain ⟨fields, frame, read⟩ := mem_knownTypes_iff_readable.mp known
    exact ⟨frame, isOf_of_ofFields? read⟩
  · rintro ⟨frame, of⟩
    exact mem_knownTypes_of_isOf of

/-! ### The type of a text -/

/-- The string that stands last under `type` in the object that a text denotes. -/
def typeIn? (text : String) : Option String :=
  (Json.members? text).bind fun members =>
    (Fields.get? members.reverse "type").bind Json.asString?

theorem typeIn?_of_read (read : Json.read? text = some (.obj fields)) :
    typeIn? text = (Fields.get? fields "type").bind Json.asString? := by
  obtain ⟨members, given, rfl⟩ := Option.map_eq_some_iff.mp (Json.read?_eq_obj_iff.mp read)
  rw [typeIn?, given, Option.bind_some, Fields.get?_ofList_eq_reverse]

theorem exists_fields_of_typeIn? (typed : typeIn? text = some name) :
    ∃ fields, Json.read? text = some (.obj fields) ∧
      Fields.get? fields "type" = some (.str name) := by
  obtain ⟨members, given, -⟩ := Option.bind_eq_some_iff.mp typed
  have read : Json.read? text = some (.obj (Fields.ofList members)) := by
    rw [Json.read?_eq_obj_iff, given, Option.map_some]
  rw [typeIn?_of_read read] at typed
  obtain ⟨value, found, string⟩ := Option.bind_eq_some_iff.mp typed
  cases value with
  | str written =>
    cases string
    exact ⟨_, read, found⟩
  | _ => cases string

theorem ofJson_of_untyped {json : Json} (read : Json.read? text = some json)
    (untyped : typeIn? text = none) : ofJson json = .error .missingType := by
  cases json with
  | obj fields =>
    rw [typeIn?_of_read read] at untyped
    simp only [ofJson]
    split
    · next name found =>
      rw [found] at untyped
      cases untyped
    · rfl
  | _ => rfl

/-- What may become of a text. -/
inductive Reading (text : String) : Except FrameError Frame → Prop where
  | unread (unread : Json.read? text = none) (untyped : typeIn? text = none) :
    Reading text (.error (.json .parse))
  | untyped (json : Json) (read : Json.read? text = some json) (untyped : typeIn? text = none) :
    Reading text (.error .missingType)
  | foreign (name : String) (read : (Json.read? text).isSome = true)
    (typed : typeIn? text = some name) (foreign : name ∉ knownTypes) :
    Reading text (.ok (.unknown name))
  | unfit (name : String) (read : (Json.read? text).isSome = true)
    (typed : typeIn? text = some name) (known : name ∈ knownTypes) :
    Reading text (.error (.json .data))
  | fit (name : String) (frame : Frame) (read : (Json.read? text).isSome = true)
    (typed : typeIn? text = some name) (of : frame.IsOf name) : Reading text (.ok frame)

theorem reading_parse (text : String) : Reading text (parse text) := by
  rw [parse]
  cases typed : typeIn? text with
  | none =>
    cases read : Json.read? text with
    | none => exact .unread read typed
    | some json =>
      simp only [ofJson_of_untyped read typed]
      exact .untyped json read typed
  | some name =>
    obtain ⟨fields, read, found⟩ := exists_fields_of_typeIn? typed
    have good : (Json.read? text).isSome = true := by rw [read]; rfl
    simp only [read, ofJson, found, List.contains_iff_mem]
    split
    · next known =>
      split
      · next frame fits => exact .fit name frame good typed (isOf_of_ofFields? fits)
      · exact .unfit name good typed known
    · next foreign => exact .foreign name good typed foreign

namespace Reading

variable {result : Except FrameError Frame}

theorem unread_iff (reading : Reading text result) :
    result = .error (.json .parse) ↔ Json.read? text = none := by
  cases reading with
  | unread unread _ => simp [unread]
  | untyped json read _ => simp [read]
  | foreign name read _ _ => simp [Option.ne_none_iff_isSome.mpr read]
  | unfit name read _ _ => simp [Option.ne_none_iff_isSome.mpr read]
  | fit name frame read _ _ => simp [Option.ne_none_iff_isSome.mpr read]

theorem missingType_iff (reading : Reading text result) :
    result = .error .missingType ↔ (Json.read? text).isSome = true ∧ typeIn? text = none := by
  cases reading with
  | unread unread _ => simp [unread]
  | untyped json read untyped => simp [read, untyped]
  | foreign name _ typed _ => simp [typed]
  | unfit name _ typed _ => simp [typed]
  | fit name frame _ typed _ => simp [typed]

theorem unknown_iff (reading : Reading text result) (name : String) :
    result = .ok (.unknown name) ↔ typeIn? text = some name ∧ name ∉ knownTypes := by
  cases reading with
  | unread _ untyped => simp [untyped]
  | untyped json _ untyped => simp [untyped]
  | foreign other _ typed foreign =>
    rw [typed, Except.ok.injEq, unknown.injEq, Option.some.injEq]
    exact ⟨fun same => ⟨same, same ▸ foreign⟩, And.left⟩
  | unfit other _ typed known =>
    rw [typed, Option.some.injEq]
    constructor
    · intro impossible
      cases impossible
    · rintro ⟨rfl, stranger⟩
      exact absurd known stranger
  | fit other frame _ typed of =>
    rw [typed, Option.some.injEq, Except.ok.injEq]
    constructor
    · rintro rfl
      exact absurd of.2 (by simp [isUnknown])
    · rintro ⟨rfl, stranger⟩
      exact absurd (mem_knownTypes_of_isOf of) stranger

theorem of_known (reading : Reading text result) {name : String} (known : name ∈ knownTypes)
    (typed : typeIn? text = some name) :
    result = .error (.json .data) ∨ ∃ frame : Frame, result = .ok frame ∧ frame.isUnknown = false := by
  cases reading with
  | unread _ untyped => exact absurd (untyped.symm.trans typed) (by simp)
  | untyped json _ untyped => exact absurd (untyped.symm.trans typed) (by simp)
  | foreign other _ typed' foreign =>
    obtain rfl : other = name := Option.some.inj (typed'.symm.trans typed)
    exact absurd known foreign
  | unfit => exact .inl rfl
  | fit other frame _ _ of => exact .inr ⟨frame, rfl, of.2⟩

theorem typed_of_ok {frame : Frame} (reading : Reading text (.ok frame)) :
    typeIn? text = some frame.typeName := by
  cases reading with
  | foreign name _ typed _ => exact typed
  | fit name frame _ typed of => rw [typed, of.1]

end Reading

/-- The type of a text decides what becomes of the text.  Text that is no JSON is told apart, a
    type that is missing is what other JSON lacks, types that are not known are taken as they are
    and change nothing on any board, and a body of a known type reads as a frame of that type or
    does not fit.  The table of known types is that of the bodies and that of the frames. -/
theorem texts_dispatched_by_type :
    (∀ text, (parse text = .error (.json .parse) ↔ Json.read? text = none) ∧
      (parse text = .error .missingType ↔
        (Json.read? text).isSome = true ∧ typeIn? text = none) ∧
      (∀ name, parse text = .ok (.unknown name) ↔
        typeIn? text = some name ∧ name ∉ knownTypes) ∧
      (∀ name ∈ knownTypes, typeIn? text = some name →
        parse text = .error (.json .data) ∨
          ∃ frame, parse text = .ok frame ∧ frame.isUnknown = false) ∧
      (∀ frame, parse text = .ok frame → typeIn? text = some frame.typeName)) ∧
    (∀ (name : String) (board : Session.Board), board.apply (.unknown name) = (board, [])) ∧
    (∀ name, (name ∈ knownTypes ↔ ∃ fields frame, ofFields? name fields = some frame) ∧
      (name ∈ knownTypes ↔ ∃ frame : Frame, frame.IsOf name)) := by
  refine ⟨fun text => ?_, fun _ _ => rfl, fun name =>
    ⟨mem_knownTypes_iff_readable, mem_knownTypes_iff_exists_isOf⟩⟩
  have reading := reading_parse text
  refine ⟨reading.unread_iff, reading.missingType_iff, reading.unknown_iff,
    fun name known typed => reading.of_known known typed, fun frame read => ?_⟩
  rw [read] at reading
  exact reading.typed_of_ok

/-- Two types in one object, of which this client knows the one that comes first. -/
def retypedText : String :=
  "\x7b\"type\":\"chat_created\",\"chat_id\":\"c\",\"type\":\"pong\"\x7d"

/-- The same types the other way round, with a body that does not fit. -/
def unfitText : String := "\x7b\"type\":\"pong\",\"chat_id\":7,\"type\":\"chat_created\"\x7d"

theorem retyped_text_dispatched :
    typeIn? retypedText = some "pong" ∧ "pong" ∉ knownTypes ∧
      parse retypedText = .ok (.unknown "pong") ∧
      typeIn? unfitText = some "chat_created" ∧ "chat_created" ∈ knownTypes ∧
      (parse unfitText = .error (.json .data) ∨
        ∃ frame, parse unfitText = .ok frame ∧ frame.isUnknown = false) := by
  have foreign : typeIn? retypedText = some "pong" := by decide +kernel
  have unknown : "pong" ∉ knownTypes := by decide
  have typed : typeIn? unfitText = some "chat_created" := by decide +kernel
  have known : "chat_created" ∈ knownTypes := by decide
  exact ⟨foreign, unknown,
    ((texts_dispatched_by_type.1 retypedText).2.2.1 "pong").mpr ⟨foreign, unknown⟩, typed, known,
    (texts_dispatched_by_type.1 unfitText).2.2.2.1 "chat_created" known typed⟩

end Frame
end Liveboard
