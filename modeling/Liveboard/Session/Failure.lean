/-
  Liveboard/Session/Failure.lean
  ==============================
  **How a request to the session can fail.**
-/

namespace Liveboard.Session

inductive Failure where
  /-- No confirmation came before the deadline, so many milliseconds after the request. -/
  | timeout (millis : Nat)
  /-- The server refused, for this reason. -/
  | rejected (reason : String)
  /-- A manual disconnect abandoned the request. -/
  | disconnected
  /-- The session loop has ended. -/
  | clientClosed
  | transport (reason : String)
deriving DecidableEq, BEq, Repr

/-- Milliseconds as a duration in words: nothing, milliseconds, or seconds with as many
    decimals as are needed. -/
def durationText (millis : Nat) : String :=
  if millis = 0 then "0ns"
  else if millis < 1000 then Nat.repr millis ++ "ms"
  else
    let rest := millis % 1000
    let decimals :=
      if rest = 0 then ""
      else if rest % 100 = 0 then "." ++ Nat.repr (rest / 100)
      else if rest % 10 = 0 then
        "." ++ String.ofList [Nat.digitChar (rest / 100), Nat.digitChar (rest / 10 % 10)]
      else
        "." ++ String.ofList
          [Nat.digitChar (rest / 100), Nat.digitChar (rest / 10 % 10), Nat.digitChar (rest % 10)]
    Nat.repr (millis / 1000) ++ decimals ++ "s"

example : durationText 0 = "0ns" := by decide +kernel
example : durationText 250 = "250ms" := by decide +kernel
example : durationText 1001 = "1.001s" := by decide +kernel
example : durationText 1500 = "1.5s" := by decide +kernel
example : durationText 10000 = "10s" := by decide +kernel

namespace Failure

def message : Failure → String
  | timeout millis => "no confirmation within " ++ durationText millis
  | rejected reason => "rejected by server: " ++ reason
  | disconnected => "disconnected before confirmation"
  | clientClosed => "session client is closed"
  | transport reason => "transport error: " ++ reason

def isTimeout : Failure → Bool
  | timeout _ => true
  | _ => false

end Failure
end Liveboard.Session
