/-
  Liveboard/Session/Alarm.lean
  ============================
  **Timers on a clock in milliseconds.**

  An alarm that is due rings once and tells the session loop why it was armed.  Alarms
  of the connection's scope die when the scope ends; detached ones do not.  The clock
  never passes an alarm that has not rung: waiting stops at the next one due.
-/
import Liveboard.Session.Board

namespace Liveboard.Session

/-- Why the loop asked to be woken. -/
inductive Wake where
  /-- Open a fresh transport after a close. -/
  | reconnect
  /-- Load the chat that was active when the link of this generation opened. -/
  | resume (generation : Nat) (chatId : String)
  /-- The save request went unconfirmed. -/
  | saveDeadline (request : Nat)
  /-- Take away an error text unless it was replaced since. -/
  | errorExpiry (topic : Topic) (token : Nat)
deriving DecidableEq, BEq, Repr

structure Alarm where
  due : Nat
  wake : Wake
  isScoped : Bool
deriving DecidableEq, Repr

/-- The clock and the alarms that are armed, in the order they were. -/
structure Alarms where
  now : Nat
  armed : List Alarm
deriving Repr

namespace Alarms

def start : Alarms := ⟨0, []⟩

/-- Arm an alarm that dies with the scope. -/
def arm (alarms : Alarms) (after : Nat) (wake : Wake) : Alarms :=
  { alarms with armed := alarms.armed ++ [⟨alarms.now + after, wake, true⟩] }

/-- Arm an alarm that outlives the scope. -/
def armDetached (alarms : Alarms) (after : Nat) (wake : Wake) : Alarms :=
  { alarms with armed := alarms.armed ++ [⟨alarms.now + after, wake, false⟩] }

/-- End the scope; a fresh one begins. -/
def endScope (alarms : Alarms) : Alarms :=
  { alarms with armed := alarms.armed.filter fun alarm => !alarm.isScoped }

/-- When the next alarm is due. -/
def nextDue? (alarms : Alarms) : Option Nat := (alarms.armed.map (·.due)).min?

/-- Let time pass, but not beyond the next alarm due. -/
def wait (alarms : Alarms) (millis : Nat) : Alarms :=
  match alarms.nextDue? with
  | some due => { alarms with now := max alarms.now (min (alarms.now + millis) due) }
  | none => { alarms with now := alarms.now + millis }

/-- Ring the alarm at a position, if it is due. -/
def ring? (alarms : Alarms) (index : Nat) : Option (Wake × Alarms) :=
  match alarms.armed[index]? with
  | some alarm =>
    if alarm.due ≤ alarms.now then
      some (alarm.wake, { alarms with armed := alarms.armed.eraseIdx index })
    else none
  | none => none

/-- The position of the alarm that is due first, of several the one armed first. -/
def firstDue? (alarms : Alarms) : Option Nat :=
  alarms.nextDue?.bind fun due => alarms.armed.findIdx? fun alarm => alarm.due == due

/-! ### What the operations do to the alarms -/

@[simp] theorem mem_armed_arm {alarms : Alarms} {after : Nat} {wake : Wake} {alarm : Alarm} :
    alarm ∈ (alarms.arm after wake).armed ↔
      alarm ∈ alarms.armed ∨ alarm = ⟨alarms.now + after, wake, true⟩ := by
  simp [arm]

@[simp] theorem mem_armed_armDetached {alarms : Alarms} {after : Nat} {wake : Wake} {alarm : Alarm} :
    alarm ∈ (alarms.armDetached after wake).armed ↔
      alarm ∈ alarms.armed ∨ alarm = ⟨alarms.now + after, wake, false⟩ := by
  simp [armDetached]

@[simp] theorem mem_armed_endScope {alarms : Alarms} {alarm : Alarm} :
    alarm ∈ alarms.endScope.armed ↔ alarm ∈ alarms.armed ∧ alarm.isScoped = false := by
  simp [endScope]

@[simp] theorem armed_wait (alarms : Alarms) (millis : Nat) :
    (alarms.wait millis).armed = alarms.armed := by
  unfold wait
  split <;> rfl

theorem now_le_now_wait (alarms : Alarms) (millis : Nat) :
    alarms.now ≤ (alarms.wait millis).now := by
  unfold wait
  split
  · exact Nat.le_max_left ..
  · exact Nat.le_add_right ..

/-- Waiting never passes an alarm that was still to come. -/
theorem now_wait_le_due {alarms : Alarms} {alarm : Alarm} (millis : Nat)
    (armed : alarm ∈ alarms.armed) (toCome : alarms.now ≤ alarm.due) :
    (alarms.wait millis).now ≤ alarm.due := by
  unfold wait
  split
  · next due h =>
    have least := (List.min?_eq_some_iff.mp h).2 alarm.due (List.mem_map_of_mem armed)
    simp only
    omega
  · next h =>
    simp only [nextDue?, List.min?_eq_none_iff, List.map_eq_nil_iff] at h
    simp [h] at armed

end Alarms
end Liveboard.Session
