/-
  Liveboard/Proofs/Component/Slots.lean
  =====================================
  **Children may stand under either key.**

  Where a list under `children` is renamed to `content`, or the other way round, at all
  components of a value that have but one of the two keys, the same tree is read up to slots
  (`map_unmarked_ofJson?_exchanged`).  What is read of an object whose slots hold lists depends
  only on its other fields and on the components in the two lists together
  (`map_unmarked_assemble?`).
-/
import Liveboard.Proofs.Component.RoundTrip
import Liveboard.Proofs.Component.Unmarked

namespace Liveboard

def Slot.other : Slot → Slot
  | .children => .content
  | .content => .children

theorem Slot.key_other_ne (slot : Slot) : slot.other.key ≠ slot.key := by
  cases slot <;> decide

theorem Slot.other_other (slot : Slot) : slot.other.other = slot := by
  cases slot <;> rfl

theorem Slot.eq_other_of_ne {slot other : Slot} (apart : other ≠ slot) : other = slot.other := by
  revert apart
  cases other <;> cases slot <;> decide

/-- The key of the other slot; any other key stays. -/
def Slot.exchangeKey (key : String) : String :=
  if key = "children" then "content" else if key = "content" then "children" else key

def Slot.isKey (key : String) : Bool := key == "children" || key == "content"

namespace Json

/-! ### Exchanging the slots of a value -/

mutual
/-- The same value with `children` and `content` exchanged wherever they hold a list, at its
    root and at the items of such lists. -/
def exchanged : Json → Json
  | .obj fields => .obj (Fields.ofList (exchangedFields fields))
  | .null => .null
  | .bool b => .bool b
  | .num n => .num n
  | .str s => .str s
  | .arr items => .arr items
termination_by structural json => json

def exchangedFields : List (String × Json) → List (String × Json)
  | [] => []
  | (key, .arr items) :: fields =>
    (Slot.exchangeKey key, .arr (if Slot.isKey key then exchangedItems items else items)) ::
      exchangedFields fields
  | field :: fields => field :: exchangedFields fields
termination_by structural fields => fields

def exchangedItems : List Json → List Json
  | [] => []
  | item :: items => exchanged item :: exchangedItems items
termination_by structural items => items
end

theorem exchangedItems_eq_map (items : List Json) :
    exchangedItems items = items.map exchanged := by
  induction items with
  | nil => rfl
  | cons item items ih => rw [exchangedItems, ih, List.map_cons]

mutual
/-- No component of the value has both keys: an object with a kind, at the root or among the
    items of a list in such a slot. -/
def hasOneSlot : Json → Bool
  | .obj fields =>
    (Component.takeKind? fields).isNone ||
      !(Fields.contains fields "children" && Fields.contains fields "content") &&
        haveOneSlotUnder fields
  | _ => true
termination_by structural json => json

def haveOneSlotUnder : List (String × Json) → Bool
  | [] => true
  | (key, .arr items) :: fields =>
    (!Slot.isKey key || itemsHaveOneSlot items) && haveOneSlotUnder fields
  | _ :: fields => haveOneSlotUnder fields
termination_by structural fields => fields

def itemsHaveOneSlot : List Json → Bool
  | [] => true
  | item :: items => hasOneSlot item && itemsHaveOneSlot items
termination_by structural items => items
end

theorem itemsHaveOneSlot_iff {items : List Json} :
    itemsHaveOneSlot items = true ↔ ∀ item ∈ items, item.hasOneSlot = true := by
  induction items with
  | nil => simp [itemsHaveOneSlot]
  | cons item items ih => simp [itemsHaveOneSlot, ih]

end Json

namespace Fields

variable {fields : Fields} {key : String}

theorem get?_ofList_cons (name : String) (value : Json) (entries : List (String × Json))
    (key : String) : get? (ofList ((name, value) :: entries)) key =
      (get? (ofList entries) key).or (if key = name then some value else none) := by
  rw [← List.singleton_append, get?_ofList_append]
  exact congrArg _ (get?_insert name value [] key)

theorem erase_eq_self (absent : get? fields key = none) : erase fields key = fields := by
  refine List.filter_eq_self.mpr fun field mem => ?_
  rw [bne_iff_ne]
  rintro rfl
  exact get?_eq_none_iff.mp absent (List.mem_map_of_mem mem)

theorem erase_comm (fields : Fields) (key other : String) :
    erase (erase fields key) other = erase (erase fields other) key := by
  rw [erase, erase, erase, erase, List.filter_filter, List.filter_filter]
  refine List.filter_congr fun field _ => ?_
  rw [Bool.and_comm]

end Fields

namespace Component

open Json

variable {fields : Fields} {key : String} {slot : Slot}

/-! ### Fields with exchanged slots -/

theorem exchangedFields_cons_arr (slot : Slot) (items : List Json) (fields : Fields) :
    exchangedFields ((slot.key, .arr items) :: fields) =
      (slot.other.key, .arr (exchangedItems items)) :: exchangedFields fields := by
  cases slot <;> rfl

theorem exchangedFields_cons_of_not_isList {value : Json} (notList : value.isList = false) :
    exchangedFields ((key, value) :: fields) = (key, value) :: exchangedFields fields := by
  cases value with
  | arr items => cases notList
  | _ => rfl

theorem exchangedFields_cons_of_ne (slot : Slot) (value : Json) (apart : key ≠ slot.key)
    (apart' : key ≠ slot.other.key) :
    exchangedFields ((key, value) :: fields) = (key, value) :: exchangedFields fields := by
  have notKey : key ≠ "children" ∧ key ≠ "content" := by
    cases slot with
    | children => exact ⟨apart, apart'⟩
    | content => exact ⟨apart', apart⟩
  cases value with
  | arr items => simp [exchangedFields, Slot.exchangeKey, Slot.isKey, notKey]
  | _ => rfl

/-- No slot holds a list. -/
def HasNoList (fields : Fields) : Prop :=
  ∀ (slot : Slot) (value : Json), Fields.get? fields slot.key = some value →
    value.isList = false

theorem exchangedFields_eq_self (sorted : Fields.IsSorted fields) (noList : HasNoList fields) :
    exchangedFields fields = fields := by
  induction fields with
  | nil => rfl
  | cons field fields ih =>
    obtain ⟨name, value⟩ := field
    have once : Fields.get? fields name = none := sorted.get?_eq_none
    have later : HasNoList fields := by
      intro slot value found
      refine noList slot value ?_
      rw [Fields.get?_cons, if_neg, found]
      rintro rfl
      rw [once] at found
      cases found
    have ih := ih (List.pairwise_cons.mp sorted).2 later
    by_cases slot : ∃ slot : Slot, name = slot.key
    · obtain ⟨slot, rfl⟩ := slot
      have notList := noList slot value (by rw [Fields.get?_cons, if_pos rfl])
      rw [exchangedFields_cons_of_not_isList notList, ih]
    · have apart : ∀ slot : Slot, name ≠ slot.key := fun other same => slot ⟨other, same⟩
      rw [exchangedFields_cons_of_ne .children value (apart _) (apart _), ih]

/-- A list in one slot moves to the other, if that is not used. -/
theorem get?_exchangedFields {items : List Json} (sorted : Fields.IsSorted fields)
    (list : Fields.get? fields slot.key = some (.arr items))
    (absent : Fields.get? fields slot.other.key = none) (key : String) :
    Fields.get? (Fields.ofList (exchangedFields fields)) key =
      if key = slot.other.key then some (.arr (exchangedItems items))
      else if key = slot.key then none else Fields.get? fields key := by
  induction fields with
  | nil => cases list
  | cons field fields ih =>
    obtain ⟨name, value⟩ := field
    have later : Fields.IsSorted fields := (List.pairwise_cons.mp sorted).2
    have once : Fields.get? fields name = none := sorted.get?_eq_none
    rw [Fields.get?_cons] at list absent
    by_cases away : slot.other.key = name
    · rw [if_pos away] at absent
      cases absent
    rw [if_neg away] at absent
    by_cases here : slot.key = name
    · -- the list that moves; neither slot is used by what comes after it
      subst here
      rw [if_pos rfl] at list
      cases list
      have noList : HasNoList fields := by
        intro other value found
        by_cases here : other = slot
        · rw [here, once] at found
          cases found
        · rw [Slot.eq_other_of_ne here, absent] at found
          cases found
      rw [exchangedFields_cons_arr, Fields.get?_ofList_cons,
        exchangedFields_eq_self later noList, later.ofList_eq_self, Fields.get?_cons]
      by_cases there : key = slot.other.key
      · simp [there, absent]
      · by_cases self : key = slot.key
        · simp [self, once, Ne.symm slot.key_other_ne]
        · simp [there, self]
    · rw [if_neg here] at list
      rw [exchangedFields_cons_of_ne slot value (Ne.symm here) (Ne.symm away),
        Fields.get?_ofList_cons, ih later list absent, Fields.get?_cons]
      by_cases self : key = name
      · simp [self, Ne.symm here, Ne.symm away, once]
      · simp [self]

/-! ### Reading an object whose slots hold lists -/

/-- The fields of an object without its slots. -/
def body (fields : Fields) : Fields := Fields.erase (Fields.erase fields "children") "content"

theorem get?_body (fields : Fields) (key : String) :
    Fields.get? (body fields) key =
      if key = "content" then none else if key = "children" then none
      else Fields.get? fields key := by
  rw [body, Fields.get?_erase, Fields.get?_erase]

/-- Only what stands under other keys matters. -/
theorem body_congr {other : Fields} (sorted : Fields.IsSorted other)
    (sorted' : Fields.IsSorted fields)
    (same : ∀ key, (∀ slot : Slot, key ≠ slot.key) →
      Fields.get? other key = Fields.get? fields key) : body other = body fields := by
  refine ((sorted.erase _).erase _).ext ((sorted'.erase _).erase _) fun key => ?_
  refine (get?_body other key).trans (Eq.trans ?_ (get?_body fields key).symm)
  by_cases content : key = "content"
  · rw [if_pos content, if_pos content]
  · by_cases children : key = "children"
    · rw [if_pos children, if_pos children]
    · rw [same key (by rintro (_ | _) <;> assumption)]

theorem takeKind?_erase (fields : Fields) (kind : key ≠ "kind") (type : key ≠ "type") :
    takeKind? (Fields.erase fields key) =
      (takeKind? fields).map fun taken => (taken.1, Fields.erase taken.2 key) := by
  unfold takeKind?
  rw [Fields.get?_erase_of_ne (Ne.symm kind), Fields.get?_erase_of_ne (Ne.symm type),
    Fields.erase_comm fields key "kind", Fields.erase_comm _ key "type"]
  split
  · rfl
  · split <;> rfl

theorem takeId_erase (fields : Fields) (id : key ≠ "id") :
    takeId (Fields.erase fields key) =
      ((takeId fields).1, Fields.erase (takeId fields).2 key) := by
  unfold takeId
  rw [Fields.get?_erase_of_ne (Ne.symm id), Fields.erase_comm fields key "id"]
  split <;> rfl

theorem takeKind?_body (fields : Fields) :
    takeKind? (body fields) = (takeKind? fields).map fun taken => (taken.1, body taken.2) := by
  rw [body, takeKind?_erase _ (by decide) (by decide),
    takeKind?_erase fields (by decide) (by decide), Option.map_map]
  rfl

theorem takeId_body (fields : Fields) :
    takeId (body fields) = ((takeId fields).1, body (takeId fields).2) := by
  rw [body, takeId_erase _ (by decide), takeId_erase fields (by decide)]
  rfl

/-- All that the slots hold is lists. -/
def HasOnlyLists (fields : Fields) : Prop :=
  ∀ (slot : Slot) (value : Json), Fields.get? fields slot.key = some value → value.isList = true

theorem dropChildren_of_hasOnlyLists (lists : HasOnlyLists fields) :
    dropChildren fields = Fields.erase fields "children" := by
  cases found : Fields.get? fields "children" with
  | none => rw [dropChildren, found, Fields.erase_eq_self found]
  | some value =>
    have list := lists .children value found
    cases value with
    | arr items => exact dropChildren_of_arr found
    | _ => cases list

/-- The component that fields without slots and these children make. -/
def compose? (fields : Fields) (children : List Component) : Option Component :=
  (takeKind? fields).map fun taken =>
    ⟨taken.1, (takeId taken.2).1, (takeId taken.2).2, children, .children⟩

/-- What is read depends on the other fields and on the components of both lists together. -/
theorem map_unmarked_assemble? (canonical : (Json.obj fields).IsCanonical)
    (lists : HasOnlyLists fields) (children : List Component) {content : List Component}
    (unlisted : Fields.get? fields "content" = none → content = []) :
    (assemble? fields children content).map unmarked =
      compose? (body fields) (unmarkedAll (children ++ content)) := by
  rw [compose?, takeKind?_body, Option.map_map]
  unfold assemble?
  cases taken : takeKind? fields with
  | none => rfl
  | some taken' =>
    obtain ⟨kind, rest⟩ := taken'
    obtain ⟨kindTaken, -⟩ := leaves_takeKind? canonical taken
    obtain ⟨idTaken, -⟩ := leaves_takeId kindTaken.canonical
    have same : ∀ slot : Slot, Fields.get? (takeId rest).2 slot.key =
        Fields.get? fields slot.key := by
      intro slot
      exact (kindTaken.trans idTaken).same _ (by cases slot <;> decide)
    have dropped : dropChildren (takeId rest).2 = Fields.erase (takeId rest).2 "children" :=
      dropChildren_of_hasOnlyLists fun slot value found => lists slot value (same slot ▸ found)
    have left : Fields.get? (Fields.erase (takeId rest).2 "children") "content" =
        Fields.get? fields "content" := by
      rw [Fields.get?_erase_of_ne (by decide)]
      exact same .content
    simp only [Option.bind_eq_bind, Option.bind_some, dropped, Option.map_some,
      Function.comp_apply, takeId_body]
    cases found : Fields.get? fields "content" with
    | none =>
      rw [found] at left
      have held : holdsList (Fields.erase (takeId rest).2 "children") "content" = false := by
        rw [holdsList, left]
      rw [held, if_neg Bool.false_ne_true, Option.map_some, unmarked, unlisted found,
        List.append_nil, body, Fields.erase_eq_self left]
    | some value =>
      have held : holdsList (Fields.erase (takeId rest).2 "children") "content" = true := by
        rw [holdsList_of_get? (left.trans found)]
        exact lists .content value found
      rw [held, if_pos rfl, Option.map_some, unmarked, body]

/-! ### The same tree up to slots -/

mutual
theorem isCanonical_exchanged : ∀ json : Json, json.IsCanonical → json.exchanged.IsCanonical
  | .obj fields, canonical =>
    isCanonical_ofList
      (isCanonical_of_mem_exchangedFields fields (isCanonical_obj_iff.mp canonical).2)
  | .null, canonical | .bool _, canonical | .num _, canonical | .str _, canonical
  | .arr _, canonical => canonical
termination_by structural json => json

theorem isCanonical_of_mem_exchangedFields : ∀ fields : List (String × Json),
    (∀ field ∈ fields, field.2.IsCanonical) →
    ∀ entry ∈ exchangedFields fields, entry.2.IsCanonical
  | [], _, _, mem => nomatch mem
  | (key, .arr items) :: fields, canonical, entry, mem => by
    obtain ⟨first, later⟩ := List.forall_mem_cons.mp canonical
    rcases List.mem_cons.mp mem with rfl | mem
    · by_cases slot : Slot.isKey key = true
      · simp only [if_pos slot]
        exact isCanonical_arr_iff.mpr
          (isCanonical_of_mem_exchangedItems items (isCanonical_arr_iff.mp first))
      · simp only [if_neg slot]
        exact first
    · exact isCanonical_of_mem_exchangedFields fields later entry mem
  | (key, .null) :: fields, canonical, entry, mem
  | (key, .bool _) :: fields, canonical, entry, mem
  | (key, .num _) :: fields, canonical, entry, mem
  | (key, .str _) :: fields, canonical, entry, mem
  | (key, .obj _) :: fields, canonical, entry, mem => by
    obtain ⟨first, later⟩ := List.forall_mem_cons.mp canonical
    rcases List.mem_cons.mp mem with rfl | mem
    · exact first
    · exact isCanonical_of_mem_exchangedFields fields later entry mem
termination_by structural fields => fields

theorem isCanonical_of_mem_exchangedItems : ∀ items : List Json,
    (∀ item ∈ items, item.IsCanonical) → ∀ item ∈ exchangedItems items, item.IsCanonical
  | [], _, _, mem => nomatch mem
  | item :: items, canonical, entry, mem => by
    obtain ⟨first, later⟩ := List.forall_mem_cons.mp canonical
    rcases List.mem_cons.mp mem with rfl | mem
    · exact isCanonical_exchanged item first
    · exact isCanonical_of_mem_exchangedItems items later entry mem
termination_by structural items => items
end

theorem get?_exchangedFields_of_ne (sorted : Fields.IsSorted fields)
    (apart : ∀ slot : Slot, key ≠ slot.key) :
    Fields.get? (Fields.ofList (exchangedFields fields)) key = Fields.get? fields key := by
  induction fields with
  | nil => rfl
  | cons field fields ih =>
    obtain ⟨name, value⟩ := field
    have once : Fields.get? fields name = none := sorted.get?_eq_none
    have ih := ih (List.pairwise_cons.mp sorted).2
    by_cases slot : ∃ slot : Slot, name = slot.key
    · obtain ⟨slot, rfl⟩ := slot
      -- whatever becomes of the slot, its key is a slot's
      rw [Fields.get?_cons, if_neg (apart slot), ← ih]
      cases value with
      | arr items =>
        rw [exchangedFields_cons_arr, Fields.get?_ofList_cons, if_neg (apart slot.other),
          Option.or_none]
      | _ =>
        rw [exchangedFields_cons_of_not_isList rfl, Fields.get?_ofList_cons,
          if_neg (apart slot), Option.or_none]
    · have other : ∀ slot : Slot, name ≠ slot.key := fun other same => slot ⟨other, same⟩
      rw [exchangedFields_cons_of_ne .children value (other _) (other _), Fields.get?_ofList_cons,
        ih, Fields.get?_cons]
      by_cases here : key = name
      · rw [if_pos here, if_pos here, here, once, Option.none_or]
      · rw [if_neg here, if_neg here, Option.or_none]

/-- An object without a kind has none when its slots are exchanged. -/
theorem takeKind?_exchangedFields (sorted : Fields.IsSorted fields)
    (none : takeKind? fields = none) :
    takeKind? (Fields.ofList (exchangedFields fields)) = Option.none := by
  have kind : Fields.get? (Fields.ofList (exchangedFields fields)) "kind" =
      Fields.get? fields "kind" :=
    get?_exchangedFields_of_ne sorted (by intro slot; cases slot <;> decide)
  have type : Fields.get? (Fields.ofList (exchangedFields fields)) "type" =
      Fields.get? fields "type" :=
    get?_exchangedFields_of_ne sorted (by intro slot; cases slot <;> decide)
  unfold takeKind? at none ⊢
  rw [kind, type]
  split at none
  · cases none
  · split at none
    · cases none
    · rfl

theorem exists_unused_slot
    (one : (!(Fields.contains fields "children" && Fields.contains fields "content")) = true) :
    ∃ slot : Slot, Fields.get? fields slot.other.key = none := by
  rw [Fields.contains, Fields.contains] at one
  cases content : Fields.get? fields "content" with
  | none => exact ⟨.children, content⟩
  | some value =>
    rw [content, Option.isSome_some, Bool.and_true, Bool.not_eq_true',
      Option.isSome_eq_false_iff, Option.isNone_iff_eq_none] at one
    exact ⟨.content, one⟩

theorem hasOnlyLists_of_list {items : List Json}
    (list : Fields.get? fields slot.key = some (.arr items))
    (absent : Fields.get? fields slot.other.key = none) : HasOnlyLists fields := by
  intro other value found
  by_cases here : other = slot
  · rw [here, list] at found
    cases found
    rfl
  · rw [Slot.eq_other_of_ne here, absent] at found
    cases found

theorem listedUnder_of_absent (sorted : Fields.IsSorted fields)
    (absent : Fields.get? fields key = none) : listedUnder key fields = [] := by
  refine listedUnder_eq_nil sorted fun value found => ?_
  rw [absent] at found
  cases found

/-- What is read of an object with children in one slot, and the other not used. -/
theorem map_unmarked_ofJson?_of_list {items : List Json} (canonical : (Json.obj fields).IsCanonical)
    (list : Fields.get? fields slot.key = some (.arr items))
    (absent : Fields.get? fields slot.other.key = none) :
    (ofJson? (.obj fields)).map unmarked =
      compose? (body fields) (unmarkedAll (ofItems items)) := by
  have lists := hasOnlyLists_of_list list absent
  have here := listedUnder_of_arr list
  have there := listedUnder_of_absent canonical.sorted absent
  rw [ofJson?, map_unmarked_assemble? canonical lists _ (listedUnder_of_absent canonical.sorted)]
  cases slot with
  | children =>
    simp only [Slot.other, Slot.key] at here there
    rw [here, there, List.append_nil]
  | content =>
    simp only [Slot.other, Slot.key] at here there
    rw [here, there, List.nil_append]

/-- A list of children may move from one slot to the other. -/
theorem map_unmarked_ofJson?_moved {items : List Json} (canonical : (Json.obj fields).IsCanonical)
    (list : Fields.get? fields slot.key = some (.arr items))
    (absent : Fields.get? fields slot.other.key = none)
    (same : unmarkedAll (ofItems (exchangedItems items)) = unmarkedAll (ofItems items)) :
    (ofJson? (Json.obj fields).exchanged).map unmarked = (ofJson? (.obj fields)).map unmarked := by
  have canonical' := isCanonical_exchanged (.obj fields) canonical
  rw [exchanged] at canonical' ⊢
  have found := get?_exchangedFields canonical.sorted list absent
  have list' : Fields.get? (Fields.ofList (exchangedFields fields)) slot.other.key =
      some (.arr (exchangedItems items)) := by
    rw [found, if_pos rfl]
  have absent' : Fields.get? (Fields.ofList (exchangedFields fields)) slot.other.other.key =
      none := by
    rw [slot.other_other, found, if_neg (Ne.symm slot.key_other_ne), if_pos rfl]
  have bodies := body_congr canonical'.sorted canonical.sorted fun key apart =>
    get?_exchangedFields_of_ne canonical.sorted apart
  rw [map_unmarked_ofJson?_of_list canonical' list' absent', bodies, same,
    map_unmarked_ofJson?_of_list canonical list absent]

/-- An object reads the same up to slots when its slots are exchanged, if its children do. -/
theorem map_unmarked_ofJson?_obj (canonical : (Json.obj fields).IsCanonical)
    (one : (Json.obj fields).hasOneSlot = true)
    (children : haveOneSlotUnder fields = true → ∀ (slot : Slot) (items : List Json),
      Fields.get? fields slot.key = some (.arr items) →
      unmarkedAll (ofItems (exchangedItems items)) = unmarkedAll (ofItems items)) :
    (ofJson? (Json.obj fields).exchanged).map unmarked = (ofJson? (.obj fields)).map unmarked := by
  cases taken : takeKind? fields with
  | none =>
    have none := takeKind?_exchangedFields canonical.sorted taken
    rw [exchanged, ofJson?, ofJson?, assemble?, assemble?, taken, none]
    rfl
  | some kind =>
    rw [hasOneSlot, taken, Option.isNone_some, Bool.false_or, Bool.and_eq_true] at one
    obtain ⟨slot, absent⟩ := exists_unused_slot one.1
    by_cases list : ∃ items, Fields.get? fields slot.key = some (.arr items)
    · obtain ⟨items, list⟩ := list
      exact map_unmarked_ofJson?_moved canonical list absent (children one.2 slot items list)
    · have noList : HasNoList fields := by
        intro other value found
        cases value with
        | arr items =>
          by_cases here : other = slot
          · exact absurd ⟨items, here ▸ found⟩ list
          · rw [Slot.eq_other_of_ne here, absent] at found
            cases found
        | _ => rfl
      rw [exchanged, exchangedFields_eq_self canonical.sorted noList,
        canonical.sorted.ofList_eq_self]

theorem unmarkedAll_ofItems_cons (item : Json) (items : List Json) :
    unmarkedAll (ofItems (item :: items)) =
      ((ofJson? item).map unmarked).toList ++ unmarkedAll (ofItems items) := by
  rw [ofItems]
  cases ofJson? item <;> rfl

mutual
/-- Where no component has both slots, exchanging them leaves the same tree up to slots. -/
theorem map_unmarked_ofJson?_exchanged : ∀ json : Json, json.IsCanonical →
    json.hasOneSlot = true → (ofJson? json.exchanged).map unmarked = (ofJson? json).map unmarked
  | .obj fields, canonical, one => by
    have each := (isCanonical_obj_iff.mp canonical).2
    refine map_unmarked_ofJson?_obj canonical one fun under slot items list => ?_
    exact unmarkedAll_ofItems_of_mem fields each under slot items (Fields.mem_of_get? list)
  | .null, _, _ | .bool _, _, _ | .num _, _, _ | .str _, _, _ | .arr _, _, _ => rfl
termination_by structural json => json

theorem unmarkedAll_ofItems_of_mem : ∀ fields : List (String × Json),
    (∀ field ∈ fields, field.2.IsCanonical) → haveOneSlotUnder fields = true →
    ∀ (slot : Slot) (items : List Json), (slot.key, .arr items) ∈ fields →
      unmarkedAll (ofItems (exchangedItems items)) = unmarkedAll (ofItems items)
  | [], _, _, _, _, mem => nomatch mem
  | (key, .arr items) :: fields, canonical, one, slot, listed, mem => by
    obtain ⟨first, later⟩ := List.forall_mem_cons.mp canonical
    rw [haveOneSlotUnder, Bool.and_eq_true] at one
    rcases List.mem_cons.mp mem with here | mem
    · cases here
      have isKey : Slot.isKey slot.key = true := by
        cases slot <;> rfl
      rw [isKey, Bool.not_true, Bool.false_or] at one
      exact unmarkedAll_ofItems_exchangedItems items (isCanonical_arr_iff.mp first) one.1
    · exact unmarkedAll_ofItems_of_mem fields later one.2 slot listed mem
  | (key, .null) :: fields, canonical, one, slot, listed, mem
  | (key, .bool _) :: fields, canonical, one, slot, listed, mem
  | (key, .num _) :: fields, canonical, one, slot, listed, mem
  | (key, .str _) :: fields, canonical, one, slot, listed, mem
  | (key, .obj _) :: fields, canonical, one, slot, listed, mem => by
    obtain ⟨-, later⟩ := List.forall_mem_cons.mp canonical
    rcases List.mem_cons.mp mem with here | mem
    · cases here
    · exact unmarkedAll_ofItems_of_mem fields later one slot listed mem
termination_by structural fields => fields

theorem unmarkedAll_ofItems_exchangedItems : ∀ items : List Json,
    (∀ item ∈ items, item.IsCanonical) → itemsHaveOneSlot items = true →
    unmarkedAll (ofItems (exchangedItems items)) = unmarkedAll (ofItems items)
  | [], _, _ => rfl
  | item :: items, canonical, one => by
    obtain ⟨first, later⟩ := List.forall_mem_cons.mp canonical
    rw [itemsHaveOneSlot, Bool.and_eq_true] at one
    rw [exchangedItems, unmarkedAll_ofItems_cons, unmarkedAll_ofItems_cons,
      map_unmarked_ofJson?_exchanged item first one.1,
      unmarkedAll_ofItems_exchangedItems items later one.2]
termination_by structural items => items
end

/-! ### Lists in both slots -/

theorem ofItems_append (items later : List Json) :
    ofItems (items ++ later) = ofItems items ++ ofItems later := by
  rw [ofItems_eq_filterMap, ofItems_eq_filterMap, ofItems_eq_filterMap, List.filterMap_append]

theorem isCanonical_insert {value : Json} (canonical : (Json.obj fields).IsCanonical)
    (canonical' : value.IsCanonical) : (Json.obj (Fields.insert key value fields)).IsCanonical := by
  obtain ⟨sorted, each⟩ := isCanonical_obj_iff.mp canonical
  refine isCanonical_obj_iff.mpr ⟨sorted.insert key value, fun field mem => ?_⟩
  rcases Fields.of_mem_insert mem with rfl | mem
  · exact canonical'
  · exact each field mem

theorem isCanonical_of_get? {value : Json} (canonical : (Json.obj fields).IsCanonical)
    (found : Fields.get? fields key = some value) : value.IsCanonical :=
  (isCanonical_obj_iff.mp canonical).2 _ (Fields.mem_of_get? found)

/-- Two lists of children read as the one list of both, under `children`. -/
theorem map_unmarked_ofJson?_of_both {items later : List Json}
    (canonical : (Json.obj fields).IsCanonical)
    (children : Fields.get? fields "children" = some (.arr items))
    (content : Fields.get? fields "content" = some (.arr later)) :
    (ofJson? (.obj fields)).map unmarked =
      (ofJson? (.obj (Fields.insert "children" (.arr (items ++ later))
        (Fields.erase fields "content")))).map unmarked := by
  have lists : HasOnlyLists fields := by
    intro slot value found
    cases slot with
    | children =>
      rw [show Fields.get? fields "children" = _ from found] at children
      cases children
      rfl
    | content =>
      rw [show Fields.get? fields "content" = _ from found] at content
      cases content
      rfl
  have both : (Json.arr (items ++ later)).IsCanonical := by
    rw [isCanonical_arr_iff, List.forall_mem_append]
    exact ⟨isCanonical_arr_iff.mp (isCanonical_of_get? canonical children),
      isCanonical_arr_iff.mp (isCanonical_of_get? canonical content)⟩
  have canonical' : (Json.obj (Fields.insert "children" (.arr (items ++ later))
      (Fields.erase fields "content"))).IsCanonical :=
    isCanonical_insert (canonical.erase "content") both
  have found := Fields.get?_insert "children" (.arr (items ++ later))
    (Fields.erase fields "content")
  have list := (found Slot.children.key).trans (if_pos rfl)
  have absent := (found Slot.children.other.key).trans
    ((if_neg (by decide)).trans (Fields.get?_erase_self fields "content"))
  have bodies := body_congr canonical'.sorted canonical.sorted fun key apart =>
    (found key).trans ((if_neg (apart .children)).trans
      (Fields.get?_erase_of_ne (apart .content) fields))
  have unlisted : Fields.get? fields "content" = none → listedUnder "content" fields = [] := by
    intro none
    rw [none] at content
    cases content
  rw [map_unmarked_ofJson?_of_list canonical' list absent, bodies, ofJson?,
    map_unmarked_assemble? canonical lists _ unlisted, listedUnder_of_arr children,
    listedUnder_of_arr content, ofItems_append]

end Component

/-! ### Forests -/

namespace Forest

open Component

theorem alike_ofItems {items : List Json} (canonical : ∀ item ∈ items, item.IsCanonical)
    (one : ∀ item ∈ items, item.hasOneSlot = true) :
    Alike (Component.ofItems (items.map Json.exchanged)) (Component.ofItems items) ∧
      Alike (ofItems (items.map Json.exchanged)) (ofItems items) := by
  have same := unmarkedAll_ofItems_exchangedItems items canonical
    (Json.itemsHaveOneSlot_iff.mpr one)
  rw [Json.exchangedItems_eq_map] at same
  have alike := alike_of_unmarkedAll_eq same
  exact ⟨alike, alike_of_unmarkedAll_eq alike.known⟩

/-- Where no component has both slots, a value and the same one with its slots exchanged read
    as the same tree up to slots, and so do lists of such values; nothing that is made of the
    two forests tells them apart.  An object with a list in either slot reads as the one with
    both lists under `children`. -/
theorem slots_are_interchangeable :
    (∀ json : Json, json.IsCanonical → json.hasOneSlot = true →
      json.exchanged.IsCanonical ∧
      (ofJson? json.exchanged).map unmarked = (ofJson? json).map unmarked) ∧
    (∀ items : List Json, (∀ item ∈ items, item.IsCanonical) →
      (∀ item ∈ items, item.hasOneSlot = true) →
      Alike (Component.ofItems (items.map Json.exchanged)) (Component.ofItems items) ∧
      Alike (ofItems (items.map Json.exchanged)) (ofItems items)) ∧
    (∀ (fields : Fields) (items later : List Json), (Json.obj fields).IsCanonical →
      Fields.get? fields "children" = some (.arr items) →
      Fields.get? fields "content" = some (.arr later) →
      (ofJson? (.obj fields)).map unmarked =
        (ofJson? (.obj (Fields.insert "children" (.arr (items ++ later))
          (Fields.erase fields "content")))).map unmarked) := by
  refine ⟨?_, ?_, ?_⟩
  · intro json canonical one
    exact ⟨isCanonical_exchanged json canonical,
      map_unmarked_ofJson?_exchanged json canonical one⟩
  · intro items canonical one
    exact alike_ofItems canonical one
  · intro fields items later canonical children content
    exact map_unmarked_ofJson?_of_both canonical children content

/-- Children under either key, slots that hold no list, and both keys in an object that is no
    component. -/
def slottedText : String :=
  "\x7b\"kind\":\"card\",\"content\":[" ++
    "\x7b\"kind\":\"row\",\"children\":[" ++
      "\x7b\"kind\":\"metric\",\"children\":null\x7d]\x7d," ++
    "\x7b\"kind\":\"text\",\"content\":\"body\"\x7d," ++
    "\x7b\"children\":[1],\"content\":[2]\x7d]\x7d"

/-- The same with its slots exchanged, as it is written. -/
def exchangedText : String :=
  "\x7b\"children\":[" ++
    "\x7b\"content\":[" ++
      "\x7b\"children\":null,\"kind\":\"metric\"\x7d],\"kind\":\"row\"\x7d," ++
    "\x7b\"content\":\"body\",\"kind\":\"text\"\x7d," ++
    "\x7b\"children\":[2],\"content\":[1]\x7d],\"kind\":\"card\"\x7d"

/-- A component with a list in either slot. -/
def fullText : String :=
  "\x7b\"kind\":\"grid\",\"children\":[\x7b\"kind\":\"list\"\x7d]," ++
    "\"content\":[\x7b\"kind\":\"chart\"\x7d,\x7b\"kind\":\"table\"\x7d]\x7d"

theorem slots_are_interchangeable_slotted :
    (∃ json, Json.read? slottedText = some json ∧ json.IsCanonical ∧ json.hasOneSlot = true ∧
      json.exchanged.compact = exchangedText ∧
      (ofJson? json.exchanged).map unmarked = (ofJson? json).map unmarked ∧
      Alike (ofItems [json.exchanged]) (ofItems [json])) ∧
    (∃ fields items later, Json.read? fullText = some (.obj fields) ∧
      Fields.get? fields "children" = some (.arr items) ∧
      Fields.get? fields "content" = some (.arr later) ∧
      (ofJson? (.obj fields)).map unmarked =
        (ofJson? (.obj (Fields.insert "children" (.arr (items ++ later))
          (Fields.erase fields "content")))).map unmarked) := by
  obtain ⟨single, lists, both⟩ := slots_are_interchangeable
  constructor
  · have whole : (Json.read? slottedText).map (fun json =>
        (json.hasOneSlot, json.exchanged.compact)) = some (true, exchangedText) := by
      decide +kernel
    obtain ⟨json, read, told⟩ := Option.map_eq_some_iff.mp whole
    obtain ⟨one, compact⟩ := Prod.mk.inj told
    have canonical := Json.isCanonical_of_read? read
    have alike := lists [json] (List.forall_mem_singleton.mpr canonical)
      (List.forall_mem_singleton.mpr one)
    exact ⟨json, read, canonical, one, compact, (single json canonical one).2, alike.2⟩
  · have whole : (Json.read? fullText).any (fun json =>
        (json.get? "children").any Json.isList && (json.get? "content").any Json.isList) =
        true := by
      decide +kernel
    obtain ⟨json, read, listed⟩ := (Option.any_eq_true _ _).mp whole
    rw [Bool.and_eq_true] at listed
    obtain ⟨children, found, list⟩ := (Option.any_eq_true _ _).mp listed.1
    obtain ⟨content, found', list'⟩ := (Option.any_eq_true _ _).mp listed.2
    cases json with
    | obj fields =>
      cases children with
      | arr items =>
        cases content with
        | arr later =>
          exact ⟨fields, items, later, read, found, found',
            both fields items later (Json.isCanonical_of_read? read) found found'⟩
        | _ => cases list'
      | _ => cases list
    | _ => cases found

end Forest
end Liveboard
