/-
  Liveboard/Rehearsal/Desk.lean
  =============================
  **Confirmations rehearsed by themselves**, with requesters that may walk away.

  A requester that has walked away hears nothing, but its request still occupies the slot.
-/
import Liveboard.Session.Confirmations

namespace Liveboard.Rehearsal

open Session

structure Desk where
  slot : Confirmations Nat
  /-- The requests somebody still waits for. -/
  waiting : List Nat

namespace Desk

inductive Cue where
  | register
  | resolve (value : String)
  | reject (reason : String)
  | expire (request : Nat)
  | rejectAll (failure : Failure)
  | abandon (request : Nat)
  | timeout

inductive Reply where
  | nothing
  | count (n : Nat)
  | flag (yes : Bool)
deriving DecidableEq, Repr

def start (timeout : Nat) : Desk := ⟨.empty timeout, []⟩

/-- What the requesters hear, by request. -/
def hear (desk : Desk) (slot : Confirmations Nat) (settled : List (Settlement Nat String)) :
    Desk × List (Settlement Nat String) :=
  let heard := settled.filter fun settlement => desk.waiting.contains settlement.reply
  ({ slot := slot
     waiting := desk.waiting.filter fun id => !settled.any fun settlement => settlement.reply == id },
    heard.mergeSort fun x y => x.reply ≤ y.reply)

def play (desk : Desk) : Cue → Desk × Reply × List (Settlement Nat String)
  | .register =>
    let (slot, id) := desk.slot.register desk.slot.nextId
    (⟨slot, desk.waiting ++ [id]⟩, .count id, [])
  | .resolve value => flagged (desk.slot.resolve value)
  | .reject reason => flagged (desk.slot.reject (.rejected reason))
  | .expire request => flagged (desk.slot.expire request)
  | .rejectAll failure =>
    let (slot, settled) := desk.slot.rejectAll failure
    let (desk, heard) := desk.hear slot settled
    (desk, .nothing, heard)
  | .abandon request =>
    ({ desk with waiting := desk.waiting.filter (· != request) },
      .flag (desk.waiting.contains request), [])
  | .timeout => (desk, .count desk.slot.timeout, [])
where
  flagged (outcome : Confirmations Nat × List (Settlement Nat String)) :
      Desk × Reply × List (Settlement Nat String) :=
    let (slot, settled) := outcome
    let (desk, heard) := desk.hear slot settled
    (desk, .flag (!settled.isEmpty), heard)

end Desk
end Liveboard.Rehearsal
