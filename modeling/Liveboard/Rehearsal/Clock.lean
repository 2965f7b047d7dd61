/-
  Liveboard/Rehearsal/Clock.lean
  ==============================
  **Alarms rehearsed by themselves.**
-/
import Liveboard.Session.Alarm

namespace Liveboard.Rehearsal

open Session

/-- Alarms, whether there is still someone to arm them and someone to hear them. -/
structure Clock where
  alarms : Alarms
  hasOwner : Bool
  isHeard : Bool

/-- An alarm that rang, and when. -/
structure Ringing where
  time : Nat
  wake : Wake

namespace Clock

inductive Cue where
  | arm (after : Nat) (wake : Wake)
  | armDetached (after : Nat) (wake : Wake)
  | endScope
  /-- The owner goes away, and the scope with it. -/
  | abandon
  | deafen
  | advance (millis : Nat)

def start : Clock := ⟨.start, true, true⟩

/-- Ring what is due now. -/
def ringAll : Nat → Clock → List Ringing → Clock × List Ringing
  | 0, clock, rung => (clock, rung)
  | fuel + 1, clock, rung =>
    match clock.alarms.firstDue?.bind clock.alarms.ring? with
    | some (wake, alarms) =>
      let rung := if clock.isHeard then rung ++ [⟨clock.alarms.now, wake⟩] else rung
      ringAll fuel { clock with alarms := alarms } rung
    | none => (clock, rung)

/-- Let time pass up to a moment, ringing what becomes due on the way. -/
def advanceTo : Nat → Nat → Clock → List Ringing → Clock × List Ringing
  | 0, _, clock, rung => (clock, rung)
  | fuel + 1, time, clock, rung =>
    let (clock, rung) := ringAll (clock.alarms.armed.length + 1) clock rung
    if clock.alarms.now < time then
      advanceTo fuel time
        { clock with alarms := clock.alarms.wait (time - clock.alarms.now) } rung
    else (clock, rung)

def play (clock : Clock) (cue : Cue) : Clock × List Ringing :=
  let (clock, millis) : Clock × Nat := match cue with
    | .arm after wake =>
      (if clock.hasOwner then { clock with alarms := clock.alarms.arm after wake } else clock, 0)
    | .armDetached after wake =>
      (if clock.hasOwner then { clock with alarms := clock.alarms.armDetached after wake } else clock, 0)
    | .endScope =>
      (if clock.hasOwner then { clock with alarms := clock.alarms.endScope } else clock, 0)
    | .abandon => ({ clock with alarms := clock.alarms.endScope, hasOwner := false }, 0)
    | .deafen => ({ clock with isHeard := false }, 0)
    | .advance millis => (clock, millis)
  advanceTo (clock.alarms.armed.length + 2) (clock.alarms.now + millis) clock []

end Clock
end Liveboard.Rehearsal
