/-
  Liveboard/Session/Confirmations.lean
  ====================================
  **Waiting for confirmations that carry no name.**

  A confirmation does not say which request it answers, so at most one request can be
  matched to it: the latest one, which is `current`.  An earlier request that is still
  open is set aside; no confirmation reaches it, only its own deadline.

  Requests are numbered from one.  Every operation returns the replies it settles, each
  with its result; an operation that settles nothing changes nothing.
-/
import Liveboard.Session.Failure

namespace Liveboard.Session

/-- A reply that has been given its result. -/
structure Settlement (ρ α : Type) where
  reply : ρ
  result : Except Failure α

structure Confirmations (ρ : Type) where
  current : Option (Nat × ρ)
  /-- Requests set aside, latest first. -/
  displaced : List (Nat × ρ)
  nextId : Nat
  /-- Milliseconds until a request is given up. -/
  timeout : Nat
deriving Repr

namespace Confirmations

variable {ρ α : Type}

def empty (timeout : Nat) : Confirmations ρ := ⟨none, [], 1, timeout⟩

def isOccupied (slot : Confirmations ρ) : Bool := slot.current.isSome

/-- Every request that is still unsettled. -/
def unsettled (slot : Confirmations ρ) : List (Nat × ρ) := slot.current.toList ++ slot.displaced

/-- Open a request; the caller arms a deadline for the number returned. -/
def register (slot : Confirmations ρ) (reply : ρ) : Confirmations ρ × Nat :=
  ({ slot with
      current := some (slot.nextId, reply)
      displaced := slot.current.toList ++ slot.displaced
      nextId := slot.nextId + 1 }, slot.nextId)

/-- Settle the current request. -/
def settle (slot : Confirmations ρ) (result : Except Failure α) :
    Confirmations ρ × List (Settlement ρ α) :=
  match slot.current with
  | some (_, reply) => ({ slot with current := none }, [⟨reply, result⟩])
  | none => (slot, [])

def resolve (slot : Confirmations ρ) (value : α) : Confirmations ρ × List (Settlement ρ α) :=
  slot.settle (.ok value)

def reject (slot : Confirmations ρ) (failure : Failure) : Confirmations ρ × List (Settlement ρ α) :=
  slot.settle (.error failure)

/-- The deadline of a request passed: it is settled by a timeout if it is still open,
    whether current or set aside. -/
def expire (slot : Confirmations ρ) (id : Nat) : Confirmations ρ × List (Settlement ρ α) :=
  match slot.current with
  | some (currentId, reply) =>
    if currentId = id then ({ slot with current := none }, [⟨reply, .error (.timeout slot.timeout)⟩])
    else expireDisplaced slot id
  | none => expireDisplaced slot id
where
  expireDisplaced (slot : Confirmations ρ) (id : Nat) :
      Confirmations ρ × List (Settlement ρ α) :=
    match slot.displaced.lookup id with
    | some reply =>
      ({ slot with displaced := slot.displaced.filter fun entry => entry.1 != id },
        [⟨reply, .error (.timeout slot.timeout)⟩])
    | none => (slot, [])

/-- Settle every open request with one failure. -/
def rejectAll (slot : Confirmations ρ) (failure : Failure) :
    Confirmations ρ × List (Settlement ρ α) :=
  ({ slot with current := none, displaced := [] },
    slot.unsettled.map fun entry => ⟨entry.2, .error failure⟩)

/-! ### What the operations do to the open requests -/

@[simp] theorem unsettled_empty (timeout : Nat) : (empty timeout : Confirmations ρ).unsettled = [] :=
  rfl

@[simp] theorem unsettled_register (slot : Confirmations ρ) (reply : ρ) :
    (slot.register reply).1.unsettled = (slot.nextId, reply) :: slot.unsettled := rfl

theorem isOccupied_register (slot : Confirmations ρ) (reply : ρ) :
    (slot.register reply).1.isOccupied = true := rfl

/-- Settling concerns the current request and leaves those set aside alone. -/
@[simp] theorem unsettled_settle (slot : Confirmations ρ) (result : Except Failure α) :
    (slot.settle result).1.unsettled = slot.displaced := by
  unfold settle
  split <;> simp_all [unsettled]

@[simp] theorem unsettled_rejectAll (slot : Confirmations ρ) (failure : Failure) :
    (slot.rejectAll (α := α) failure).1.unsettled = [] := rfl

end Confirmations
end Liveboard.Session
