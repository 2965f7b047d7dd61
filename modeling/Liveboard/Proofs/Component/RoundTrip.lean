/-
  Liveboard/Proofs/Component/RoundTrip.lean
  =========================================
  **Components are written so that they are read back.**

  On the wire a component is one flat object: kind, id and children stand among the
  attributes.  It is well formed if none of its attributes would be taken for one of them.
  Whatever is read is well formed (`isWellFormed_of_ofJson?`), and what is well formed reads
  back as it was written, but for the slot of components without children, which leaves no
  trace on the wire (`ofJson?_toJson`, `toJson_settled`).
-/
import Liveboard.Component.Basic
import Liveboard.Json.Writer
import Liveboard.Proofs.Json.Canonical

namespace Liveboard

namespace Json

/-- The value would be read as an id, or as the lack of one. -/
def isIdLike : Json → Bool
  | .str _ | .num _ | .null => true
  | _ => false

def isList : Json → Bool
  | .arr _ => true
  | _ => false

end Json

namespace Component

variable {component : Component} {fields rest : Fields} {key : String}

/-! ### Well-formed components -/

/-- The attributes are a map, and none of them would be read as kind, id or children. -/
structure IsUnambiguous (component : Component) : Prop where
  canonical : (Json.obj component.attributes).IsCanonical
  kind : component.attribute? "kind" = none
  id : ∀ value, component.attribute? "id" = some value →
    component.id = none ∧ value.isIdLike = false
  children : ∀ value, component.attribute? "children" = some value →
    value.isList = false ∧ value.isNull = false
  content : ∀ value, component.attribute? "content" = some value → value.isList = false
  slot : component.children ≠ [] → component.attribute? component.slot.key = none

mutual
/-- No component of the tree is ambiguous. -/
def IsWellFormed : Component → Prop
  | ⟨kind, id, attributes, children, slot⟩ =>
    IsUnambiguous ⟨kind, id, attributes, children, slot⟩ ∧ AreWellFormed children
termination_by structural component => component

def AreWellFormed : List Component → Prop
  | [] => True
  | component :: forest => IsWellFormed component ∧ AreWellFormed forest
termination_by structural forest => forest
end

mutual
/-- The same tree with the slot of all components without children set to `children`. -/
def settled : Component → Component
  | ⟨kind, id, attributes, children, slot⟩ =>
    ⟨kind, id, attributes, settledAll children, if children.isEmpty then .children else slot⟩
termination_by structural component => component

def settledAll : List Component → List Component
  | [] => []
  | component :: forest => settled component :: settledAll forest
termination_by structural forest => forest
end

theorem areWellFormed_iff {forest : List Component} :
    AreWellFormed forest ↔ ∀ component ∈ forest, component.IsWellFormed := by
  induction forest with
  | nil => simp [AreWellFormed]
  | cons component forest ih => simp [AreWellFormed, ih]

/-! ### The children that are read -/

theorem listedUnder_of_arr {items : List Json}
    (found : Fields.get? fields key = some (.arr items)) :
    listedUnder key fields = ofItems items := by
  induction fields with
  | nil => cases found
  | cons field fields ih =>
    obtain ⟨other, value⟩ := field
    rw [Fields.get?_cons] at found
    by_cases here : key = other
    · rw [if_pos here, Option.some.injEq] at found
      subst found
      rw [listedUnder, if_pos here.symm]
    · rw [if_neg here] at found
      cases value with
      | arr others => rw [listedUnder, if_neg (Ne.symm here), ih found]
      | _ => exact ih found

theorem listedUnder_eq_nil (sorted : Fields.IsSorted fields)
    (other : ∀ value, Fields.get? fields key = some value → value.isList = false) :
    listedUnder key fields = [] := by
  induction fields with
  | nil => rfl
  | cons field fields ih =>
    obtain ⟨head, value⟩ := field
    have later := ih (List.pairwise_cons.mp sorted).2
    by_cases here : key = head
    · subst here
      have notList := other value (by rw [Fields.get?_cons, if_pos rfl])
      have none := sorted.get?_eq_none
      cases value with
      | arr items => cases notList
      | _ => exact later (by simp [none])
    · have later := later fun value found => other value
        (by rw [Fields.get?_cons, if_neg here, found])
      cases value with
      | arr items => rw [listedUnder, if_neg (Ne.symm here), later]
      | _ => exact later

/-! ### Whatever is read is well formed -/

/-- What taking something out of the fields of an object leaves: a map without the keys that
    were used up. -/
structure Leaves (fields rest : Fields) (used : List String) : Prop where
  canonical : (Json.obj rest).IsCanonical
  same : ∀ key, key ∉ used → Fields.get? rest key = Fields.get? fields key

theorem Leaves.trans {last : Fields} {used used' : List String} (first : Leaves fields rest used)
    (second : Leaves rest last used') : Leaves fields last (used ++ used') := by
  refine ⟨second.canonical, fun key apart => ?_⟩
  rw [List.mem_append, not_or] at apart
  rw [second.same key apart.2, first.same key apart.1]

theorem leaves_rfl (canonical : (Json.obj fields).IsCanonical) (used : List String) :
    Leaves fields fields used :=
  ⟨canonical, fun _ _ => rfl⟩

theorem leaves_erase (canonical : (Json.obj fields).IsCanonical) (key : String) :
    Leaves fields (Fields.erase fields key) [key] :=
  ⟨canonical.erase key, fun _ apart =>
    Fields.get?_erase_of_ne (fun same => apart (List.mem_singleton.mpr same)) fields⟩

theorem leaves_takeKind? {kind : String} (canonical : (Json.obj fields).IsCanonical)
    (taken : takeKind? fields = some (kind, rest)) :
    Leaves fields rest ["kind", "type"] ∧ Fields.get? rest "kind" = none := by
  unfold takeKind? at taken
  split at taken
  · cases taken
    refine ⟨⟨canonical.erase _, fun key apart => ?_⟩, Fields.get?_erase_self _ _⟩
    exact Fields.get?_erase_of_ne (by rintro rfl; simp at apart) fields
  · split at taken
    · cases taken
      refine ⟨⟨(canonical.erase _).erase _, fun key apart => ?_⟩, ?_⟩
      · simp only [List.mem_cons, List.not_mem_nil, or_false, not_or] at apart
        rw [Fields.get?_erase_of_ne apart.2, Fields.get?_erase_of_ne apart.1]
      · rw [Fields.get?_erase_of_ne (by decide), Fields.get?_erase_self]
    · cases taken

theorem leaves_takeId (canonical : (Json.obj fields).IsCanonical) :
    Leaves fields (takeId fields).2 ["id"] ∧
      ∀ value, Fields.get? (takeId fields).2 "id" = some value →
        (takeId fields).1 = none ∧ value.isIdLike = false := by
  have erased : ∀ {name : Option String} value,
      Fields.get? (Fields.erase fields "id") "id" = some value →
        name = none ∧ value.isIdLike = false := by
    intro name value found
    rw [Fields.get?_erase_self] at found
    cases found
  unfold takeId
  split
  · exact ⟨leaves_erase canonical "id", erased⟩
  · exact ⟨leaves_erase canonical "id", erased⟩
  · exact ⟨leaves_erase canonical "id", erased⟩
  · next notStr notNum notNull =>
    refine ⟨leaves_rfl canonical _, fun value found => ⟨rfl, ?_⟩⟩
    cases value with
    | str id => exact absurd found (notStr id)
    | num n => exact absurd found (notNum n)
    | null => exact absurd found notNull
    | _ => rfl

theorem leaves_dropChildren (canonical : (Json.obj fields).IsCanonical) :
    Leaves fields (dropChildren fields) ["children"] ∧
      ∀ value, Fields.get? (dropChildren fields) "children" = some value →
        Fields.get? fields "children" = some value ∧ value.isList = false ∧
          value.isNull = false := by
  have erased : ∀ value, Fields.get? (Fields.erase fields "children") "children" = some value →
      Fields.get? fields "children" = some value ∧ value.isList = false ∧
        value.isNull = false := by
    intro value found
    rw [Fields.get?_erase_self] at found
    cases found
  unfold dropChildren
  split
  · exact ⟨leaves_erase canonical "children", erased⟩
  · exact ⟨leaves_erase canonical "children", erased⟩
  · next notArr notNull =>
    refine ⟨leaves_rfl canonical _, fun value found => ⟨found, ?_⟩⟩
    cases value with
    | arr items => exact absurd found (notArr items)
    | null => exact absurd found notNull
    | _ => exact ⟨rfl, rfl⟩

/-- The key under which children were found is used up. -/
theorem get?_dropChildren_eq_none {used : List String} (canonical : (Json.obj fields).IsCanonical)
    (leaves : Leaves fields rest used) (unused : "children" ∉ used)
    (listed : listedUnder "children" fields ≠ []) :
    Fields.get? (dropChildren rest) "children" = none := by
  refine Option.eq_none_iff_forall_ne_some.mpr fun value found => listed ?_
  obtain ⟨before, notList, -⟩ := (leaves_dropChildren leaves.canonical).2 value found
  rw [leaves.same "children" unused] at before
  refine listedUnder_eq_nil canonical.sorted fun other same => ?_
  rw [before, Option.some.injEq] at same
  rw [← same]
  exact notList

theorem holdsList_of_get? {value : Json} (found : Fields.get? fields key = some value) :
    holdsList fields key = value.isList := by
  rw [holdsList, found]
  cases value <;> rfl

theorem holdsList_eq_false
    (other : ∀ value, Fields.get? fields key = some value → value.isList = false) :
    holdsList fields key = false := by
  cases found : Fields.get? fields key with
  | none => rw [holdsList, found]
  | some value => rw [holdsList_of_get? found, other value found]

theorem isUnambiguous_of_assemble? (canonical : (Json.obj fields).IsCanonical)
    (read : assemble? fields (listedUnder "children" fields) (listedUnder "content" fields) =
      some component) : component.IsUnambiguous := by
  unfold assemble? at read
  obtain ⟨⟨kind, rest⟩, taken, read⟩ := Option.bind_eq_some_iff.mp read
  obtain ⟨kindTaken, noKind⟩ := leaves_takeKind? canonical taken
  obtain ⟨idTaken, ids⟩ := leaves_takeId kindTaken.canonical
  obtain ⟨dropped, others⟩ := leaves_dropChildren idTaken.canonical
  have noKind' : Fields.get? (dropChildren (takeId rest).2) "kind" = none := by
    rw [(idTaken.trans dropped).same "kind" (by decide), noKind]
  have ids' : ∀ value, Fields.get? (dropChildren (takeId rest).2) "id" = some value →
      (takeId rest).1 = none ∧ value.isIdLike = false := by
    intro value found
    rw [dropped.same "id" (by decide)] at found
    exact ids value found
  have others' : ∀ value, Fields.get? (dropChildren (takeId rest).2) "children" = some value →
      value.isList = false ∧ value.isNull = false :=
    fun value found => (others value found).2
  have used := get?_dropChildren_eq_none canonical (kindTaken.trans idTaken) (by decide)
  simp only at read
  split at read
  · cases read
    have erased : ∀ {key}, key ≠ "content" →
        Fields.get? (Fields.erase (dropChildren (takeId rest).2) "content") key =
          Fields.get? (dropChildren (takeId rest).2) key :=
      fun apart => Fields.get?_erase_of_ne apart _
    refine ⟨dropped.canonical.erase _, ?_, ?_, ?_, ?_, ?_⟩
    · rw [attribute?, erased (by decide), noKind']
    · intro value found
      rw [attribute?, erased (by decide)] at found
      exact ids' value found
    · intro value found
      rw [attribute?, erased (by decide)] at found
      exact others' value found
    · intro value found
      rw [attribute?, Fields.get?_erase_self] at found
      cases found
    · intro _
      by_cases none : listedUnder "children" fields = []
      · simp [none, attribute?, Slot.key, Fields.get?_erase_self]
      · simp [none, attribute?, Slot.key, erased, used none]
  · next notList =>
    cases read
    refine ⟨dropped.canonical, noKind', ids', others', ?_, used⟩
    intro value found
    rwa [holdsList_of_get? found, Bool.not_eq_true] at notList

/-- The children of a component that was read are the components found in its slots. -/
theorem mem_children_of_assemble? {children content : List Component} {child : Component}
    (read : assemble? fields children content = some component)
    (mem : child ∈ component.children) : child ∈ children ++ content := by
  unfold assemble? at read
  obtain ⟨⟨kind, rest⟩, -, read⟩ := Option.bind_eq_some_iff.mp read
  simp only at read
  split at read
  · cases read
    exact mem
  · cases read
    exact List.mem_append_left _ mem

theorem isWellFormed_of_isUnambiguous (unambiguous : component.IsUnambiguous)
    (children : ∀ child ∈ component.children, child.IsWellFormed) : component.IsWellFormed := by
  cases component
  exact ⟨unambiguous, areWellFormed_iff.mpr children⟩

mutual
theorem isWellFormed_of_ofJson? (json : Json) (canonical : json.IsCanonical)
    (component : Component) (read : ofJson? json = some component) : component.IsWellFormed := by
  cases json with
  | obj fields =>
    have each := (Json.isCanonical_obj_iff.mp canonical).2
    refine isWellFormed_of_isUnambiguous (isUnambiguous_of_assemble? canonical read) ?_
    intro child mem
    rcases List.mem_append.mp (mem_children_of_assemble? read mem) with mem | mem
    · exact isWellFormed_of_mem_listedUnder fields each "children" child mem
    · exact isWellFormed_of_mem_listedUnder fields each "content" child mem
  | _ => cases read
termination_by structural json

theorem isWellFormed_of_mem_listedUnder (fields : Fields)
    (canonical : ∀ field ∈ fields, field.2.IsCanonical) (key : String) (component : Component)
    (mem : component ∈ listedUnder key fields) : component.IsWellFormed := by
  match fields with
  | [] => cases mem
  | (other, value) :: fields =>
    obtain ⟨first, later⟩ := List.forall_mem_cons.mp canonical
    have later := isWellFormed_of_mem_listedUnder fields later key component
    match value with
    | .arr items =>
      rw [listedUnder] at mem
      split at mem
      · exact isWellFormed_of_mem_ofItems items (Json.isCanonical_arr_iff.mp first) component mem
      · exact later mem
    | .null | .bool _ | .num _ | .str _ | .obj _ => exact later mem
termination_by structural fields

theorem isWellFormed_of_mem_ofItems (items : List Json)
    (canonical : ∀ item ∈ items, item.IsCanonical) (component : Component)
    (mem : component ∈ ofItems items) : component.IsWellFormed := by
  match items with
  | [] => cases mem
  | item :: items =>
    obtain ⟨first, later⟩ := List.forall_mem_cons.mp canonical
    have later := isWellFormed_of_mem_ofItems items later component
    rw [ofItems] at mem
    split at mem
    · next read =>
      rcases List.mem_cons.mp mem with rfl | mem
      · exact isWellFormed_of_ofJson? item first component read
      · exact later mem
    · exact later mem
termination_by structural items
end

/-! ### What is written -/

/-- The field of the children, if there are any. -/
def slotFields (component : Component) : Fields :=
  if component.children.isEmpty then []
  else [(component.slot.key, .arr (component.children.map toJson))]

def headFields (component : Component) : Fields :=
  ("kind", .str component.kind) :: component.id.toList.map fun id => ("id", Json.str id)

/-- The fields of a component in wire order, its children as plain values. -/
def writtenFields (component : Component) : Fields :=
  component.headFields ++ component.attributes ++ component.slotFields

theorem canonicalItems_wireAll (forest : List Component) :
    Json.canonicalItems (wireAll forest) = forest.map toJson := by
  rw [Json.canonicalItems_eq_map, wireAll_eq_map, List.map_map]
  rfl

theorem toJson_eq (unambiguous : component.IsUnambiguous) :
    component.toJson = .obj (Fields.ofList component.writtenFields) := by
  obtain ⟨kind, id, attributes, children, slot⟩ := component
  have same : Json.canonicalFields attributes = attributes :=
    Json.canonicalFields_eq_self_iff.mpr (Json.isCanonical_obj_iff.mp unambiguous.canonical).2
  rw [Json.canonicalFields_eq_map] at same
  cases id <;> cases children <;>
    simp [toJson, wire, wireAll, Json.canonical, Json.canonicalItems, Json.canonicalFields_eq_map,
      canonicalItems_wireAll, writtenFields, headFields, slotFields, same]

mutual
theorem wire_settled : ∀ component : Component, component.settled.wire = component.wire
  | ⟨kind, id, attributes, children, slot⟩ => by
    rw [settled, wire, wire, wireAll_settledAll children]
    cases children with
    | nil => rfl
    | cons child children => rfl
termination_by structural component => component

theorem wireAll_settledAll : ∀ forest : List Component,
    wireAll (settledAll forest) = wireAll forest
  | [] => rfl
  | component :: forest => by
    rw [settledAll, wireAll, wireAll, wire_settled component, wireAll_settledAll forest]
termination_by structural forest => forest
end

/-- The slot of components without children leaves no trace. -/
theorem toJson_settled (component : Component) : component.settled.toJson = component.toJson := by
  rw [toJson, wire_settled, toJson]

/-! ### Reading back what was written -/

theorem get?_headFields (component : Component) (key : String) :
    Fields.get? (Fields.ofList component.headFields) key =
      if key = "id" ∧ component.id ≠ none then component.id.map Json.str
      else if key = "kind" then some (.str component.kind) else none := by
  cases same : component.id with
  | none => simp [headFields, same, Fields.ofList, Fields.get?_insert]
  | some id => simp [headFields, same, Fields.ofList, Fields.get?_insert]

theorem get?_slotFields (component : Component) (key : String) :
    Fields.get? component.slotFields key =
      if component.children ≠ [] ∧ key = component.slot.key then
        some (.arr (component.children.map toJson))
      else none := by
  cases none : component.children with
  | nil => simp [slotFields, none]
  | cons child children => simp [slotFields, none, Fields.get?_cons]

/-- Neither kind nor id stands where children may. -/
theorem get?_slotFields_eq_none (component : Component) {key : String}
    (head : key = "kind" ∨ key = "id") : Fields.get? component.slotFields key = none := by
  rw [get?_slotFields, if_neg]
  rintro ⟨-, here⟩
  rw [here] at head
  revert head
  cases component.slot <;> decide

theorem isSorted_slotFields (component : Component) : Fields.IsSorted component.slotFields := by
  unfold slotFields
  split
  · exact List.Pairwise.nil
  · exact List.pairwise_singleton _ _

/-- What is found in the wire form: the children, else an attribute, else id or kind. -/
theorem get?_written (unambiguous : component.IsUnambiguous) (key : String) :
    Fields.get? (Fields.ofList component.writtenFields) key =
      ((Fields.get? component.slotFields key).or (component.attribute? key)).or
        (Fields.get? (Fields.ofList component.headFields) key) := by
  rw [writtenFields, Fields.get?_ofList_append, Fields.get?_ofList_append,
    component.isSorted_slotFields.ofList_eq_self, unambiguous.canonical.sorted.ofList_eq_self,
    Option.or_assoc, attribute?]

theorem takeKind?_written (unambiguous : component.IsUnambiguous) :
    takeKind? (Fields.ofList component.writtenFields) =
      some (component.kind, Fields.erase (Fields.ofList component.writtenFields) "kind") := by
  have found : Fields.get? (Fields.ofList component.writtenFields) "kind" =
      some (.str component.kind) := by
    rw [get?_written unambiguous, get?_slotFields_eq_none component (.inl rfl), unambiguous.kind,
      get?_headFields]
    simp
  rw [takeKind?, found]

/-- The attributes, with the children among them if there are any. -/
structure Carries (component : Component) (rest : Fields) : Prop where
  sorted : Fields.IsSorted rest
  found : ∀ key, Fields.get? rest key =
    (Fields.get? component.slotFields key).or (component.attribute? key)

/-- Once kind and id are taken, the attributes and the children are left. -/
theorem exists_takeId_written (unambiguous : component.IsUnambiguous) :
    ∃ rest, takeId (Fields.erase (Fields.ofList component.writtenFields) "kind") =
        (component.id, rest) ∧ component.Carries rest := by
  have sorted : Fields.IsSorted (Fields.erase (Fields.ofList component.writtenFields) "kind") :=
    (Fields.isSorted_ofList _).erase "kind"
  have noKind :
      (Fields.get? component.slotFields "kind").or (component.attribute? "kind") = none := by
    rw [get?_slotFields_eq_none component (.inl rfl), unambiguous.kind, Option.or_none]
  have found : ∀ key,
      Fields.get? (Fields.erase (Fields.ofList component.writtenFields) "kind") key =
        ((Fields.get? component.slotFields key).or (component.attribute? key)).or
          (if key = "id" then component.id.map Json.str else none) := by
    intro key
    rw [Fields.get?_erase, get?_written unambiguous, get?_headFields]
    by_cases kind : key = "kind"
    · subst kind
      simp [noKind]
    · rw [if_neg kind, if_neg kind]
      cases component.id <;> simp
  cases same : component.id with
  | none =>
    simp only [same, Option.map_none, ite_self, Option.or_none] at found
    refine ⟨_, ?_, ⟨sorted, found⟩⟩
    have id := found "id"
    rw [get?_slotFields_eq_none component (.inr rfl), Option.none_or] at id
    rw [takeId, id]
    cases value : component.attribute? "id" with
    | none => rfl
    | some value' =>
      have notId := (unambiguous.id value' value).2
      cases value' with
      | str _ | num _ | null => cases notId
      | _ => rfl
  | some id =>
    have noId : (Fields.get? component.slotFields "id").or (component.attribute? "id") = none := by
      rw [get?_slotFields_eq_none component (.inr rfl), Option.none_or]
      refine Option.eq_none_iff_forall_ne_some.mpr fun value found => ?_
      rw [(unambiguous.id value found).1] at same
      cases same
    refine ⟨Fields.erase (Fields.erase (Fields.ofList component.writtenFields) "kind") "id", ?_,
      ⟨sorted.erase "id", fun key => ?_⟩⟩
    · rw [takeId, found, noId, if_pos rfl, same]
      rfl
    · rw [Fields.get?_erase, found]
      by_cases here : key = "id"
      · rw [if_pos here, here, noId]
      · rw [if_neg here, if_neg here, Option.or_none]

theorem dropChildren_eq_self (others : ∀ value, Fields.get? fields "children" = some value →
    value.isList = false ∧ value.isNull = false) : dropChildren fields = fields := by
  unfold dropChildren
  split
  · next found => cases (others _ found).1
  · next found => cases (others _ found).2
  · rfl

theorem dropChildren_of_arr {items : List Json}
    (found : Fields.get? fields "children" = some (.arr items)) :
    dropChildren fields = Fields.erase fields "children" := by
  rw [dropChildren, found]

/-- The children that were written are found under the key of their slot, and none elsewhere. -/
theorem get?_written_slot (unambiguous : component.IsUnambiguous) (slot : Slot) :
    Fields.get? (Fields.ofList component.writtenFields) slot.key =
      (Fields.get? component.slotFields slot.key).or (component.attribute? slot.key) := by
  rw [get?_written unambiguous, get?_headFields]
  cases slot <;> simp [Slot.key]

theorem listedUnder_written (unambiguous : component.IsUnambiguous) (slot : Slot) :
    listedUnder slot.key (Fields.ofList component.writtenFields) =
      if component.slot = slot then ofItems (component.children.map toJson) else [] := by
  have found := get?_written_slot unambiguous slot
  have others : ∀ value, component.attribute? slot.key = some value → value.isList = false := by
    cases slot with
    | children => exact fun value found => (unambiguous.children value found).1
    | content => exact unambiguous.content
  rw [get?_slotFields] at found
  by_cases here : component.slot = slot
  · rw [if_pos here]
    cases children : component.children with
    | nil =>
      rw [if_neg (fun some => some.1 children), Option.none_or] at found
      exact listedUnder_eq_nil (Fields.isSorted_ofList _) (found ▸ others)
    | cons child rest =>
      rw [if_pos ⟨children ▸ List.cons_ne_nil _ _, here ▸ rfl⟩, Option.some_or,
        children] at found
      exact listedUnder_of_arr found
  · have elsewhere : slot.key ≠ component.slot.key := by
      revert here
      cases component.slot <;> cases slot <;> decide
    rw [if_neg (fun same => elsewhere same.2), Option.none_or] at found
    rw [if_neg here]
    exact listedUnder_eq_nil (Fields.isSorted_ofList _) (found ▸ others)

theorem Carries.eq_attributes (carries : component.Carries rest)
    (unambiguous : component.IsUnambiguous) (none : component.children = []) :
    rest = component.attributes := by
  refine carries.sorted.ext unambiguous.canonical.sorted fun key => ?_
  rw [carries.found, get?_slotFields, if_neg (fun some => some.1 none), Option.none_or, attribute?]

theorem Carries.get?_slot (carries : component.Carries rest) (some : component.children ≠ []) :
    Fields.get? rest component.slot.key = Option.some (.arr (component.children.map toJson)) := by
  rw [carries.found, get?_slotFields, if_pos ⟨some, rfl⟩, Option.some_or]

theorem Carries.get?_of_ne (carries : component.Carries rest) (apart : key ≠ component.slot.key) :
    Fields.get? rest key = component.attribute? key := by
  rw [carries.found, get?_slotFields, if_neg (fun here => apart here.2), Option.none_or]

/-- Without the children, the attributes are left. -/
theorem Carries.erase_slot (carries : component.Carries rest)
    (unambiguous : component.IsUnambiguous) (some : component.children ≠ []) :
    Fields.erase rest component.slot.key = component.attributes := by
  refine (carries.sorted.erase _).ext unambiguous.canonical.sorted fun key => ?_
  rw [Fields.get?_erase]
  by_cases here : key = component.slot.key
  · rw [if_pos here, here]
    exact (unambiguous.slot some).symm
  · rw [if_neg here, carries.get?_of_ne here, attribute?]

theorem settled_eq (component : Component) : component.settled =
    ⟨component.kind, component.id, component.attributes, settledAll component.children,
      if component.children.isEmpty then .children else component.slot⟩ := by
  cases component
  rfl

/-- One step of reading back: the children are settled if they are read back so. -/
theorem ofJson?_toJson_of_children (unambiguous : component.IsUnambiguous)
    (children : ofItems (component.children.map toJson) = settledAll component.children) :
    ofJson? component.toJson = some component.settled := by
  obtain ⟨rest, idTaken, carries⟩ := exists_takeId_written unambiguous
  have noContent : holdsList component.attributes "content" = false :=
    holdsList_eq_false unambiguous.content
  have underChildren := listedUnder_written unambiguous .children
  have underContent := listedUnder_written unambiguous .content
  rw [children] at underChildren underContent
  simp only [Slot.key] at underChildren underContent
  rw [toJson_eq unambiguous, ofJson?, assemble?, takeKind?_written unambiguous, settled_eq]
  simp only [Option.bind_eq_bind, Option.bind_some, idTaken, underChildren, underContent]
  by_cases none : component.children = []
  · rw [carries.eq_attributes unambiguous none, dropChildren_eq_self unambiguous.children,
      noContent]
    simp [none, settledAll]
  · have same := carries.erase_slot unambiguous none
    have list := carries.get?_slot none
    cases slot : component.slot with
    | children =>
      rw [slot, Slot.key] at same list
      rw [dropChildren_of_arr list, same, noContent]
      simp
    | content =>
      have others : ∀ value, Fields.get? rest "children" = some value →
          value.isList = false ∧ value.isNull = false := by
        rw [carries.get?_of_ne (by rw [slot]; decide)]
        exact unambiguous.children
      rw [slot, Slot.key] at same list
      rw [dropChildren_eq_self others, same, holdsList_of_get? list]
      simp [Json.isList, none]

mutual
/-- A well-formed component is read back, its childless components settled. -/
theorem ofJson?_toJson : ∀ component : Component, component.IsWellFormed →
    ofJson? component.toJson = some component.settled
  | ⟨_, _, _, children, _⟩, wellFormed =>
    ofJson?_toJson_of_children wellFormed.1 (ofItems_map_toJson children wellFormed.2)
termination_by structural component => component

theorem ofItems_map_toJson : ∀ forest : List Component, AreWellFormed forest →
    ofItems (forest.map toJson) = settledAll forest
  | [], _ => rfl
  | component :: forest, ⟨first, later⟩ => by
    rw [List.map_cons, ofItems, ofJson?_toJson component first, ofItems_map_toJson forest later,
      settledAll]
termination_by structural forest => forest
end

/-- Plain values, those whose objects have their keys in order, make well-formed components;
    these are read back as they were written; so writing what was read is final. -/
theorem writing_is_stable :
    (∀ {json component}, json.IsCanonical → ofJson? json = some component →
      component.IsWellFormed) ∧
    (∀ {component : Component}, component.IsWellFormed →
      ofJson? component.toJson = some component.settled) ∧
    (∀ {json component}, json.IsCanonical → ofJson? json = some component →
      ∃ again, ofJson? component.toJson = some again ∧ again.toJson = component.toJson) := by
  refine ⟨?_, ?_, ?_⟩
  · intro json component canonical read
    exact isWellFormed_of_ofJson? json canonical component read
  · intro component wellFormed
    exact ofJson?_toJson component wellFormed
  · intro json component canonical read
    have wellFormed := isWellFormed_of_ofJson? json canonical component read
    exact ⟨component.settled, ofJson?_toJson component wellFormed, toJson_settled component⟩

/-- A kind that is no string beside a type, a numeric id, children in both slots; below, an id
    and a `children` that are attributes, an empty `content` and one that is a text. -/
def mixedText : String :=
  "\x7b\"kind\":7,\"type\":\"stack\",\"id\":12,\"children\":[" ++
    "\x7b\"kind\":\"text\",\"id\":[],\"children\":\"none\",\"content\":[]\x7d,3]," ++
    "\"content\":[\x7b\"type\":\"card\",\"id\":null,\"content\":\"body\"\x7d]\x7d"

theorem writing_is_stable_mixed :
    ∃ json component, Json.read? mixedText = some json ∧ ofJson? json = some component ∧
      component.IsWellFormed ∧ ofJson? component.toJson = some component.settled ∧
      (∃ again, ofJson? component.toJson = some again ∧ again.toJson = component.toJson) ∧
      component.toJson.compact =
        "\x7b\"children\":[" ++
          "\x7b\"children\":\"none\",\"id\":[],\"kind\":\"text\"\x7d," ++
          "\x7b\"content\":\"body\",\"kind\":\"card\"\x7d]," ++
          "\"id\":\"12\",\"kind\":\"stack\"\x7d" := by
  have whole : ((Json.read? mixedText).bind ofJson?).map (·.toJson.compact) =
      some ("\x7b\"children\":[" ++
        "\x7b\"children\":\"none\",\"id\":[],\"kind\":\"text\"\x7d," ++
        "\x7b\"content\":\"body\",\"kind\":\"card\"\x7d]," ++
        "\"id\":\"12\",\"kind\":\"stack\"\x7d") := by
    decide +kernel
  obtain ⟨component, read, written⟩ := Option.map_eq_some_iff.mp whole
  obtain ⟨json, text, read⟩ := Option.bind_eq_some_iff.mp read
  have canonical := Json.isCanonical_of_read? text
  have wellFormed := writing_is_stable.1 canonical read
  exact ⟨json, component, text, read, wellFormed, writing_is_stable.2.1 wellFormed,
    writing_is_stable.2.2 canonical read, written⟩

end Component
end Liveboard
