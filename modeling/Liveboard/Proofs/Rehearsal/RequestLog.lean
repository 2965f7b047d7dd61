/-
  Liveboard/Proofs/Rehearsal/RequestLog.lean
  ==========================================
  **A desk keeps nothing but a log of its requests.**

  The log numbers requests from one and remembers of each what it was given, if anything.
  Whatever is done at a desk, in any order, has the answers and the settlements that the
  log says, and what the slot holds can be read off the log: the open requests, the last
  one registered in front and all others set aside.
-/
import Liveboard.Proofs.Session.Settling
import Liveboard.Rehearsal.Desk

namespace Liveboard.Rehearsal.Desk

open Session

variable {α : Type}

/-! ### The desk -/

/-- What can be done at a desk, for confirmations of any type. -/
inductive Call (α : Type) where
  | register
  | resolve (value : α)
  | reject (failure : Failure)
  | expire (request : Nat)
  | rejectAll (failure : Failure)
  | abandon (request : Nat)

abbrev Outcome (α : Type) := Reply × List (Settlement Nat α)

/-- Nobody waits for a request that is settled. -/
def settle (desk : Desk) (after : Confirmations Nat × List (Settlement Nat α)) : Desk :=
  ⟨after.1, desk.waiting.filter fun id => !after.2.any fun settlement => settlement.reply == id⟩

def call (desk : Desk) : Call α → Desk × Outcome α
  | .register =>
    let (slot, id) := desk.slot.register desk.slot.nextId
    (⟨slot, desk.waiting ++ [id]⟩, .count id, [])
  | .resolve value => flagged (desk.slot.resolve value)
  | .reject failure => flagged (desk.slot.reject failure)
  | .expire request => flagged (desk.slot.expire request)
  | .rejectAll failure =>
    let after := desk.slot.rejectAll failure
    (desk.settle after, .nothing, after.2)
  | .abandon request =>
    ({ desk with waiting := desk.waiting.filter (· != request) },
      .flag (desk.waiting.contains request), [])
where
  flagged (after : Confirmations Nat × List (Settlement Nat α)) : Desk × Outcome α :=
    (desk.settle after, .flag (!after.2.isEmpty), after.2)

def run (desk : Desk) : List (Call α) → Desk × List (Outcome α)
  | [] => (desk, [])
  | call :: calls =>
    let (desk, outcome) := desk.call call
    let (desk, outcomes) := run desk calls
    (desk, outcome :: outcomes)

/-- The call behind a cue; asking for the timeout is none. -/
def Cue.call? : Cue → Option (Call String)
  | .register => some .register
  | .resolve value => some (.resolve value)
  | .reject reason => some (.reject (.rejected reason))
  | .expire request => some (.expire request)
  | .rejectAll failure => some (.rejectAll failure)
  | .abandon request => some (.abandon request)
  | .timeout => none

/-- A cue is played by its call, and those who still wait hear what they are given. -/
theorem play_eq (desk : Desk) (cue : Cue) :
    desk.play cue =
      match cue.call? with
      | some call =>
        ((desk.call call).1, (desk.call call).2.1,
          ((desk.call call).2.2.filter fun settlement =>
            desk.waiting.contains settlement.reply).mergeSort fun x y => x.reply ≤ y.reply)
      | none => (desk, .count desk.slot.timeout, []) := by
  cases cue with
  | register => simp [play, Cue.call?, call]
  | abandon request => simp [play, Cue.call?, call]
  | _ => rfl

/-! ### The log -/

structure Request (α : Type) where
  number : Nat
  result : Option (Except Failure α)
  isAwaited : Bool

namespace Request

def isOpen (request : Request α) : Bool := request.result.isNone

def settlement? (request : Request α) : Option (Settlement Nat α) :=
  request.result.map fun result => ⟨request.number, result⟩

/-- The request once a result is given to all open requests whose numbers are picked. -/
def give (request : Request α) (picks : Nat → Bool) (result : Except Failure α) : Request α :=
  if request.isOpen && picks request.number then { request with result := some result }
  else request

section give

variable (request : Request α) (picks : Nat → Bool) (result : Except Failure α)

@[simp] theorem number_give : (request.give picks result).number = request.number := by
  unfold give
  split <;> rfl

@[simp] theorem isAwaited_give : (request.give picks result).isAwaited = request.isAwaited := by
  unfold give
  split <;> rfl

@[simp] theorem isOpen_give :
    (request.give picks result).isOpen = (!picks request.number && request.isOpen) := by
  unfold give
  split
  · next picked =>
    simp only [Bool.and_eq_true] at picked
    simp [isOpen, picked.2]
  · next other =>
    cases picked : picks request.number with
    | true => simpa [picked] using other
    | false => rfl

end give

/-- The request once the requester of this number has walked away. -/
def abandon (request : Request α) (number : Nat) : Request α :=
  if request.number = number then { request with isAwaited := false } else request

section abandon

variable (request : Request α) (number : Nat)

@[simp] theorem number_abandon : (request.abandon number).number = request.number := by
  unfold abandon
  split <;> rfl

@[simp] theorem isOpen_abandon : (request.abandon number).isOpen = request.isOpen := by
  unfold abandon
  split <;> rfl

@[simp] theorem isAwaited_abandon :
    (request.abandon number).isAwaited = (request.number != number && request.isAwaited) := by
  unfold abandon
  split
  · next here => simp [here]
  · next apart => simp [apart]

@[simp] theorem settlement?_abandon :
    (request.abandon number).settlement? = request.settlement? := by
  unfold abandon
  split <;> rfl

end abandon

end Request

/-- All requests, in the order in which they were registered. -/
abbrev Log (α : Type) := List (Request α)

namespace Log

def give (log : Log α) (picks : Nat → Bool) (result : Except Failure α) : Log α :=
  log.map fun request => request.give picks result

/-- The numbers of the open requests that are picked, latest first. -/
def opened (log : Log α) (picks : Nat → Bool) : List Nat :=
  ((log.filter fun request => request.isOpen && picks request.number).map (·.number)).reverse

def isOpen (log : Log α) (number : Nat) : Bool :=
  log.any fun request => request.number == number && request.isOpen

/-- The numbers of the open requests that somebody waits for. -/
def awaited (log : Log α) : List Nat :=
  (log.filter fun request => request.isOpen && request.isAwaited).map (·.number)

def settlements (log : Log α) : List (Settlement Nat α) := log.filterMap Request.settlement?

/-- Settle one request, if it is open. -/
def settleOne (log : Log α) (number : Nat) (result : Except Failure α) : Log α × Outcome α :=
  if log.isOpen number then (log.give (· == number) result, .flag true, [⟨number, result⟩])
  else (log, .flag false, [])

/-- What each call comes to; the timeout is that of the slot. -/
def call (timeout : Nat) (log : Log α) : Call α → Log α × Outcome α
  | .register => (log ++ [⟨log.length + 1, none, true⟩], .count (log.length + 1), [])
  | .resolve value => log.settleOne log.length (.ok value)
  | .reject failure => log.settleOne log.length (.error failure)
  | .expire request => log.settleOne request (.error (.timeout timeout))
  | .rejectAll failure =>
    (log.give (fun _ => true) (.error failure), .nothing,
      (log.opened fun _ => true).map (⟨·, .error failure⟩))
  | .abandon number =>
    (log.map (·.abandon number), .flag (log.awaited.contains number), [])

def run (timeout : Nat) (log : Log α) : List (Call α) → Log α × List (Outcome α)
  | [] => (log, [])
  | call :: calls =>
    let (log, outcome) := log.call timeout call
    let (log, outcomes) := run timeout log calls
    (log, outcome :: outcomes)

section give

variable (log : Log α) (picks : Nat → Bool) (result : Except Failure α)

@[simp] theorem numbers_give :
    (log.give picks result).map (·.number) = log.map (·.number) := by
  simp [give, Function.comp_def]

@[simp] theorem length_give : (log.give picks result).length = log.length :=
  List.length_map _

theorem numbers_filter_give (keeps : Request α → Bool) :
    ((log.give picks result).filter keeps).map (·.number) =
      (log.filter fun request => keeps (request.give picks result)).map (·.number) := by
  simp [give, List.filter_map, Function.comp_def]

theorem filter_numbers (keeps : Request α → Bool) (log : Log α) (picks : Nat → Bool) :
    ((log.filter keeps).map (·.number)).filter picks =
      (log.filter fun request => picks request.number && keeps request).map (·.number) := by
  rw [List.filter_map, List.filter_filter]
  rfl

theorem opened_eq_filter : log.opened picks = (log.opened fun _ => true).filter picks := by
  rw [opened, opened, List.filter_reverse, filter_numbers]
  simp [Bool.and_comm]

theorem opened_give :
    (log.give picks result).opened (fun _ => true) =
      (log.opened fun _ => true).filter fun number => !picks number := by
  rw [opened, opened, List.filter_reverse, filter_numbers, numbers_filter_give]
  simp

theorem awaited_give :
    (log.give picks result).awaited = log.awaited.filter fun number => !picks number := by
  rw [awaited, awaited, filter_numbers, numbers_filter_give]
  simp [Bool.and_assoc]

theorem settlements_give :
    (log.give picks result).settlements.Perm
      (log.settlements ++ (log.opened picks).map (⟨·, result⟩)) := by
  refine List.Perm.trans ?_ ((((List.reverse_perm _).symm.map _)).append_left _)
  induction log with
  | nil => exact .nil
  | cons request log ih =>
    rw [give, List.map_cons]
    by_cases given : (request.isOpen && picks request.number) = true
    · have picked : (request.give picks result).settlement? = some ⟨request.number, result⟩ := by
        rw [Request.give, if_pos given]
        rfl
      have before : request.settlement? = none := by
        simp only [Bool.and_eq_true, Request.isOpen, Option.isNone_iff_eq_none] at given
        rw [Request.settlement?, given.1]
        rfl
      rw [settlements, settlements, List.filterMap_cons_some picked,
        List.filterMap_cons_none before, List.filter_cons, if_pos given, List.map_cons, List.map_cons]
      exact (ih.cons _).trans List.perm_middle.symm
    · have same : request.give picks result = request := by rw [Request.give, if_neg given]
      rw [same, List.filter_cons, if_neg given, settlements, settlements,
        List.filterMap_cons, List.filterMap_cons]
      cases request.settlement? with
      | none => exact ih
      | some settlement => exact ih.cons _

end give

theorem opened_append (log later : Log α) (picks : Nat → Bool) :
    opened (log ++ later) picks = opened later picks ++ opened log picks := by
  simp [opened]

theorem awaited_append (log later : Log α) :
    awaited (log ++ later) = awaited log ++ awaited later := by
  simp [awaited]

theorem numbers_abandon (log : Log α) (number : Nat) :
    (log.map (·.abandon number)).map (·.number) = log.map (·.number) := by
  simp [Function.comp_def]

theorem opened_abandon (log : Log α) (number : Nat) (picks : Nat → Bool) :
    opened (log.map (·.abandon number)) picks = log.opened picks := by
  simp [opened, List.filter_map, Function.comp_def]

theorem awaited_abandon (log : Log α) (number : Nat) :
    awaited (log.map (·.abandon number)) = log.awaited.filter (· != number) := by
  rw [awaited, awaited, filter_numbers]
  simp [List.filter_map, Function.comp_def, Bool.and_left_comm]

theorem settlements_abandon (log : Log α) (number : Nat) :
    settlements (log.map (·.abandon number)) = log.settlements := by
  rw [settlements, settlements, List.filterMap_map]
  congr 1
  funext request
  exact request.settlement?_abandon number

theorem mem_opened {log : Log α} {picks : Nat → Bool} {number : Nat} :
    number ∈ log.opened picks ↔
      ∃ request ∈ log, request.isOpen = true ∧ picks number = true ∧ request.number = number := by
  simp only [opened, List.mem_reverse, List.mem_map, List.mem_filter, Bool.and_eq_true]
  constructor
  · rintro ⟨request, ⟨kept, isOpen, picked⟩, rfl⟩
    exact ⟨request, kept, isOpen, picked, rfl⟩
  · rintro ⟨request, kept, isOpen, picked, rfl⟩
    exact ⟨request, ⟨kept, isOpen, picked⟩, rfl⟩

theorem numbers_perm (log : Log α) :
    (log.map (·.number)).Perm
      ((log.opened fun _ => true) ++ log.settlements.map (·.reply)) := by
  refine List.Perm.trans ?_ ((List.reverse_perm _).symm.append_right _)
  induction log with
  | nil => exact .nil
  | cons request log ih =>
    rw [settlements, List.map_cons, List.filter_cons, List.filterMap_cons]
    obtain ⟨number, result, isAwaited⟩ := request
    cases result with
    | none => exact ih.cons number
    | some result => exact (ih.cons number).trans List.perm_middle.symm

theorem nodup_opened {log : Log α} (distinct : (log.map (·.number)).Nodup) (picks : Nat → Bool) :
    (log.opened picks).Nodup := by
  exact (List.reverse_perm _).nodup_iff.mpr (distinct.sublist (List.filter_sublist.map _))

theorem isOpen_iff {log : Log α} {number : Nat} :
    log.isOpen number = true ↔ number ∈ log.opened (· == number) := by
  simp only [isOpen, List.any_eq_true, Bool.and_eq_true, beq_iff_eq, mem_opened]
  constructor
  · rintro ⟨request, kept, rfl, isOpen⟩
    exact ⟨request, kept, isOpen, trivial, rfl⟩
  · rintro ⟨request, kept, isOpen, -, rfl⟩
    exact ⟨request, kept, rfl, isOpen⟩

theorem opened_number {log : Log α} (distinct : (log.map (·.number)).Nodup) (number : Nat) :
    log.opened (· == number) = if log.isOpen number then [number] else [] := by
  have alike : ∀ other ∈ log.opened (· == number), other = number := by
    intro other h
    obtain ⟨_, _, _, same, _⟩ := mem_opened.mp h
    exact beq_iff_eq.mp same
  have once := nodup_opened distinct (· == number)
  have holds : log.isOpen number = true ↔ number ∈ log.opened (· == number) := isOpen_iff
  revert alike once holds
  cases log.opened (· == number) with
  | nil =>
    intro _ _ holds
    rw [if_neg fun isOpen => List.not_mem_nil (holds.mp isOpen)]
  | cons first rest =>
    intro alike once holds
    obtain rfl := alike first List.mem_cons_self
    have alone : rest = [] := by
      refine List.eq_nil_iff_forall_not_mem.mpr fun other h => ?_
      rw [alike other (List.mem_cons_of_mem _ h)] at h
      exact (List.nodup_cons.mp once).1 h
    rw [if_pos (holds.mpr List.mem_cons_self), alone]

theorem give_of_not_isOpen {log : Log α} {number : Nat} (none : log.isOpen number = false)
    (result : Except Failure α) : log.give (· == number) result = log := by
  refine (List.map_congr_left fun request kept => ?_).trans (List.map_id log)
  simp only [isOpen, List.any_eq_false, Bool.and_eq_true, beq_iff_eq, not_and] at none
  rw [Request.give, if_neg]
  · rfl
  · simp only [Bool.and_eq_true, beq_iff_eq]
    rintro ⟨isOpen, same⟩
    exact none request kept same isOpen

end Log

/-! ### The desk follows the log -/

/-- What the slot and the requesters hold is what the log says. -/
structure Follows (timeout : Nat) (desk : Desk) (log : Log α) : Prop where
  numbers : log.map (·.number) = List.range' 1 log.length
  nextId : desk.slot.nextId = log.length + 1
  timeout : desk.slot.timeout = timeout
  numbered : desk.slot.Numbered
  unsettled : desk.slot.unsettled = (log.opened fun _ => true).map fun number => (number, number)
  waiting : desk.waiting = log.awaited

theorem follows_start (timeout : Nat) : Follows timeout (start timeout) ([] : Log α) :=
  ⟨rfl, rfl, rfl, Confirmations.numbered_empty timeout, rfl, rfl⟩

namespace Follows

variable {timeout : Nat} {desk : Desk} {log : Log α} {picks : Nat → Bool}
  {result : Except Failure α} {after : Confirmations Nat × List (Settlement Nat α)}

theorem distinct (follows : Follows timeout desk log) : (log.map (·.number)).Nodup := by
  rw [follows.numbers]
  exact List.nodup_range'

theorem settled (follows : Follows timeout desk log)
    (settles : Confirmations.Settles desk.slot picks result after) :
    after.2 = (log.opened picks).map (⟨·, result⟩) := by
  rw [settles.settled, follows.unsettled, List.filter_map, List.map_map,
    Log.opened_eq_filter log picks]
  rfl

theorem settle (follows : Follows timeout desk log)
    (settles : Confirmations.Settles desk.slot picks result after) :
    Follows timeout (desk.settle after) (log.give picks result) := by
  constructor
  · rw [Log.numbers_give, Log.length_give, follows.numbers]
  · rw [Log.length_give, ← follows.nextId]
    exact settles.nextId
  · rw [← follows.timeout]
    exact settles.timeout
  · exact settles.numbered follows.numbered
  · rw [Log.opened_give]
    refine settles.unsettled.trans ?_
    rw [follows.unsettled, List.filter_map]
    rfl
  · rw [Log.awaited_give, Desk.settle, follows.waiting, follows.settled settles]
    apply List.filter_congr
    intro number waits
    obtain ⟨request, kept, rfl⟩ := List.mem_map.mp waits
    obtain ⟨kept, isOpen⟩ := List.mem_filter.mp kept
    simp only [Bool.and_eq_true] at isOpen
    -- an open request is settled exactly if its number is picked
    congr 1
    rw [Bool.eq_iff_iff, List.any_map, List.any_eq_true]
    constructor
    · rintro ⟨other, given, same⟩
      obtain rfl := beq_iff_eq.mp same
      obtain ⟨_, _, _, picked, _⟩ := Log.mem_opened.mp given
      exact picked
    · intro picked
      have given := Log.mem_opened.mpr ⟨request, kept, isOpen.1, picked, rfl⟩
      exact ⟨request.number, given, beq_self_eq_true _⟩

theorem flagged (follows : Follows timeout desk log) {number : Nat}
    (settles : Confirmations.Settles desk.slot (· == number) result after) :
    (call.flagged desk after).2 = (log.settleOne number result).2 ∧
      Follows timeout (call.flagged desk after).1 (log.settleOne number result).1 := by
  have settled := follows.settled settles
  have kept := follows.settle settles
  rw [Log.opened_number follows.distinct number] at settled
  rw [Log.settleOne, call.flagged, settled]
  cases isOpen : log.isOpen number with
  | true => exact ⟨rfl, kept⟩
  | false =>
    rw [Log.give_of_not_isOpen isOpen] at kept
    exact ⟨rfl, kept⟩

/-- The latest request is the one that a confirmation or a refusal settles. -/
theorem flagged_settle (follows : Follows timeout desk log) (result : Except Failure α) :
    (call.flagged desk (desk.slot.settle result)).2 = (log.settleOne log.length result).2 ∧
      Follows timeout (call.flagged desk (desk.slot.settle result)).1
        (log.settleOne log.length result).1 := by
  have latest : (fun id => id + 1 == desk.slot.nextId) = (· == log.length) := by
    funext id
    rw [follows.nextId]
    simp
  have settles := Confirmations.settles_settle follows.numbered result
  rw [latest] at settles
  exact follows.flagged settles

/-- One call has the same outcome at the desk and in the log, and the desk goes on to
    follow the log. -/
theorem call (follows : Follows timeout desk log) (call : Call α) :
    (desk.call call).2 = (log.call timeout call).2 ∧
      Follows timeout (desk.call call).1 (log.call timeout call).1 := by
  cases call with
  | register =>
    have next := follows.nextId
    refine ⟨by simp [Desk.call, Log.call, Confirmations.register, next], ?_⟩
    constructor
    · rw [Log.call, List.map_append, List.length_append, follows.numbers, List.length_singleton,
        List.range'_1_concat, Nat.add_comm 1]
      rfl
    · rw [Log.call, List.length_append]
      exact congrArg (· + 1) next
    · exact follows.timeout
    · exact follows.numbered.register desk.slot.nextId
    · rw [Log.call, Log.opened_append, List.map_append, ← follows.unsettled, ← next]
      rfl
    · rw [Log.call, Log.awaited_append, ← follows.waiting, ← next]
      rfl
  | resolve value => exact follows.flagged_settle (.ok value)
  | reject failure => exact follows.flagged_settle (.error failure)
  | expire request =>
    have settles := Confirmations.settles_expire (α := α) follows.numbered request
    rw [follows.timeout] at settles
    exact follows.flagged settles
  | rejectAll failure =>
    have settles := Confirmations.settles_rejectAll (α := α) desk.slot failure
    exact ⟨Prod.ext rfl (follows.settled settles), follows.settle settles⟩
  | abandon request =>
    refine ⟨by rw [Desk.call, Log.call, follows.waiting], ?_⟩
    constructor
    · rw [Log.call, Log.numbers_abandon, List.length_map]
      exact follows.numbers
    · rw [Log.call, List.length_map]
      exact follows.nextId
    · exact follows.timeout
    · exact follows.numbered
    · rw [Log.call, Log.opened_abandon]
      exact follows.unsettled
    · rw [Log.call, Log.awaited_abandon, ← follows.waiting]
      rfl

theorem run (follows : Follows timeout desk log) (calls : List (Call α)) :
    (desk.run calls).2 = (log.run timeout calls).2 ∧
      Follows timeout (desk.run calls).1 (log.run timeout calls).1 := by
  induction calls generalizing desk log with
  | nil => exact ⟨rfl, follows⟩
  | cons call calls ih =>
    obtain ⟨same, next⟩ := follows.call call
    obtain ⟨rest, last⟩ := ih next
    exact ⟨List.cons_eq_cons.mpr ⟨same, rest⟩, last⟩

theorem settlements_call (follows : Follows timeout desk log) (call : Call α) :
    (log.call timeout call).1.settlements.Perm
      (log.settlements ++ (log.call timeout call).2.2) := by
  have one (number : Nat) (result : Except Failure α) :
      (log.settleOne number result).1.settlements.Perm
        (log.settlements ++ (log.settleOne number result).2.2) := by
    have given := Log.settlements_give log (· == number) result
    rw [Log.opened_number follows.distinct number] at given
    rw [Log.settleOne]
    cases isOpen : log.isOpen number with
    | true =>
      rw [isOpen] at given
      exact given
    | false => simp
  cases call with
  | register => exact .of_eq List.filterMap_append
  | resolve value => exact one _ _
  | reject failure => exact one _ _
  | expire request => exact one _ _
  | rejectAll failure => exact Log.settlements_give log _ _
  | abandon request =>
    rw [Log.call, Log.settlements_abandon, List.append_nil]

theorem settlements_run (follows : Follows timeout desk log) (calls : List (Call α)) :
    (log.run timeout calls).1.settlements.Perm
      (log.settlements ++ (log.run timeout calls).2.flatMap (·.2)) := by
  induction calls generalizing desk log with
  | nil => simp [Log.run]
  | cons call calls ih =>
    have later := ih (follows.call call).2
    rw [Log.run, List.flatMap_cons, ← List.append_assoc]
    exact later.trans ((follows.settlements_call call).append_right _)

theorem eq_length_of_current (follows : Follows timeout desk log) {entry : Nat × Nat}
    (h : entry ∈ desk.slot.current) : entry.1 = log.length := by
  have latest := follows.numbered.current entry h
  have next := follows.nextId
  omega

theorem isOccupied_iff (follows : Follows timeout desk log) :
    desk.slot.isOccupied = true ↔ log.isOpen log.length = true := by
  rw [Confirmations.isOccupied, Option.isSome_iff_exists, Log.isOpen_iff, Log.opened_eq_filter]
  simp only [List.mem_filter, beq_self_eq_true, and_true]
  constructor
  · rintro ⟨entry, same⟩
    have kept : entry ∈ desk.slot.unsettled := by simp [Confirmations.unsettled, same]
    rw [follows.unsettled] at kept
    obtain ⟨number, opened, rfl⟩ := List.mem_map.mp kept
    rw [← follows.eq_length_of_current same]
    exact opened
  · intro opened
    have kept : (log.length, log.length) ∈ desk.slot.unsettled := by
      rw [follows.unsettled]
      exact List.mem_map.mpr ⟨log.length, opened, rfl⟩
    rcases List.mem_append.mp kept with current | displaced
    · exact ⟨_, Option.mem_toList.mp current⟩
    · have older := follows.numbered.displaced _ displaced
      rw [follows.nextId] at older
      exact absurd older (Nat.lt_irrefl _)

end Follows

/-- **A desk and its log.**  Whatever is done from the start, answers and settlements are
    those of the log.  Every number ever given out is that of the current request, of one
    set aside or of one settled, and only of one of them; what was settled, each once, is
    what the log says.  The current request is the latest one, there is one exactly if the
    latest is open, and requesters wait for the open requests they did not walk away from. -/
theorem run_eq_log (timeout : Nat) (calls : List (Call α)) :
    let desk := ((start timeout).run calls).1
    let outcomes := ((start timeout).run calls).2
    let log := (Log.run timeout [] calls).1
    outcomes = (Log.run timeout [] calls).2 ∧
      log.map (·.number) = List.range' 1 log.length ∧
      (log.map (·.number)).Perm
        (desk.slot.current.toList.map (·.1) ++ desk.slot.displaced.map (·.1) ++
          (outcomes.flatMap (·.2)).map (·.reply)) ∧
      (outcomes.flatMap (·.2)).Perm log.settlements ∧
      (∀ entry ∈ desk.slot.current, entry.1 = log.length) ∧
      (desk.slot.isOccupied = true ↔ log.isOpen log.length = true) ∧
      desk.slot.unsettled = (log.opened fun _ => true).map (fun number => (number, number)) ∧
      desk.waiting = log.awaited := by
  have first := follows_start (α := α) timeout
  obtain ⟨same, follows⟩ := first.run calls
  have settled := first.settlements_run calls
  rw [← same] at settled
  -- open or given something: the open ones are in the slot, the others were settled
  have numbers := Log.numbers_perm (Log.run timeout ([] : Log α) calls).1
  have opened : ((Log.run timeout ([] : Log α) calls).1.opened fun _ => true) =
      ((start timeout).run calls).1.slot.unsettled.map (·.1) := by
    rw [follows.unsettled, List.map_map]
    exact (List.map_id _).symm
  rw [opened, Confirmations.unsettled, List.map_append] at numbers
  exact ⟨same, follows.numbers, numbers.trans ((settled.map _).append_left _), settled.symm,
    fun entry h => follows.eq_length_of_current h, follows.isOccupied_iff, follows.unsettled,
    follows.waiting⟩

end Liveboard.Rehearsal.Desk
