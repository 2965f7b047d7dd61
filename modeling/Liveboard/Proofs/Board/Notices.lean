/-
  Liveboard/Proofs/Board/Notices.lean
  ===================================
  **The two error texts and the tokens they expire by.**

  An error text is set by a frame that brings an error, and goes by a frame that brings
  success or by an expiry.  `Marked` tells the history of a notice in these marks.  Tokens
  count the texts that were set (`Mark.given?`): setting a text takes the next one and
  clearing it leaves the count alone, so the token of the notice is the one that the text on
  show was given, if there is a text (`Marked.text_eq_some_iff`, `Marked.expires_iff`).
-/
import Liveboard.Session.Board

namespace Liveboard.Session

/-- What becomes of an error text.  The marks are read off the frames that come in and the
    expiries that have an effect, and not off what the board does with a frame. -/
inductive Mark where
  /-- A frame sets it. -/
  | set (text : String) (time : Nat)
  /-- A frame of success takes it away. -/
  | cleared
  | expired
deriving DecidableEq

/-- The error text on this topic that a frame brings. -/
def Topic.text? : Topic → Frame → Option String
  | .save, .saveError reason => some reason
  | .combine, .combineError reason => some reason
  | _, _ => none

/-- The frame takes the error text on this topic away. -/
def Topic.isClearedBy : Topic → Frame → Bool
  | .save, .saved _ => true
  | .combine, .combineStatus _ => true
  | _, _ => false

/-- What a frame makes of the error text on a topic. -/
def Topic.mark? (topic : Topic) (time : Nat) (frame : Frame) : Option Mark :=
  match topic.text? frame with
  | some text => some (.set text time)
  | none => if topic.isClearedBy frame then some .cleared else none

namespace Topic

variable {topic : Topic} {frame : Frame} {text : String} {now time : Nat}

theorem mark?_eq_set_iff :
    topic.mark? now frame = some (.set text time) ↔ topic.text? frame = some text ∧ time = now := by
  unfold mark?
  split
  · next brought brings => simp [brings, eq_comm]
  · next brings => split <;> simp [brings]

theorem mark?_ne_expired : topic.mark? time frame ≠ some .expired := by
  unfold mark?
  split
  · simp
  · split <;> simp

end Topic

/-! ### Tokens

Tokens count the texts that were set on a topic, from 1 on. -/

namespace Mark

variable {marks : List Mark} {text : String} {time token : Nat}

/-- The text that is set, and when. -/
def setting? : Mark → Option (String × Nat)
  | set text time => some (text, time)
  | _ => none

/-- The token of the text that was set last. -/
def lastToken (marks : List Mark) : Nat := (marks.filterMap setting?).length

/-- The text that was given a token, and when it was set. -/
def given? (marks : List Mark) : Nat → Option (String × Nat)
  | 0 => none
  | before + 1 => (marks.filterMap setting?)[before]?

theorem lastToken_set (marks : List Mark) (text : String) (time : Nat) :
    lastToken (marks ++ [set text time]) = lastToken marks + 1 := by
  rw [lastToken, List.filterMap_append, List.length_append]
  rfl

theorem lastToken_other {mark : Mark} (none : mark.setting? = none) :
    lastToken (marks ++ [mark]) = lastToken marks := by
  rw [lastToken, List.filterMap_append, List.filterMap_cons_none none, List.filterMap_nil,
    List.append_nil]
  rfl

/-- A token is given once. -/
theorem given?_append {setting : String × Nat} (given : given? marks token = some setting)
    (later : List Mark) : given? (marks ++ later) token = some setting := by
  cases token with
  | zero => cases given
  | succ before =>
    have within : before < (marks.filterMap setting?).length :=
      (List.getElem?_eq_some_iff.mp given).1
    rw [given?, List.filterMap_append, List.getElem?_append_left within]
    exact given

theorem given?_set (marks : List Mark) (text : String) (time : Nat) :
    given? (marks ++ [set text time]) (lastToken marks + 1) = some (text, time) := by
  rw [given?, List.filterMap_append]
  exact List.getElem?_concat_length

theorem given?_of_last (last : marks.getLast? = some (.set text time)) :
    given? marks (lastToken marks) = some (text, time) := by
  obtain ⟨earlier, rfl⟩ := List.getLast?_eq_some_iff.mp last
  rw [lastToken_set]
  exact given?_set earlier text time

end Mark

/-! ### The history of a notice -/

/-- A notice that went through these marks. -/
inductive Marked : List Mark → Notice → Prop where
  | fresh : Marked [] .empty
  | set {marks : List Mark} {notice : Notice} (text : String) (time : Nat)
      (earlier : Marked marks notice) : Marked (marks ++ [.set text time]) (notice.set text)
  | cleared {marks : List Mark} {notice : Notice} (earlier : Marked marks notice) :
      Marked (marks ++ [.cleared]) notice.clear
  | expired {marks : List Mark} {notice : Notice} (earlier : Marked marks notice) :
      Marked (marks ++ [.expired]) notice.clear

namespace Marked

variable {marks : List Mark} {notice : Notice}

theorem still (marked : Marked marks notice) :
    Marked (marks ++ (none : Option Mark).toList) notice := by
  rw [Option.toList_none, List.append_nil]
  exact marked

/-- A text is on show exactly when the last mark set it. -/
theorem text_eq_some_iff (marked : Marked marks notice) {text : String} :
    notice.text = some text ↔ ∃ time, marks.getLast? = some (.set text time) := by
  cases marked with
  | fresh => simp [Notice.empty]
  | set text time earlier => simp [Notice.set]
  | cleared earlier => simp [Notice.clear]
  | expired earlier => simp [Notice.clear]

/-- The notice holds the token of the text that was set last, on show or not. -/
theorem token_eq (marked : Marked marks notice) : notice.token = Mark.lastToken marks := by
  induction marked with
  | fresh => rfl
  | @set marks notice text time earlier ih =>
    rw [Mark.lastToken_set, ← ih]
    rfl
  | cleared earlier ih | expired earlier ih =>
    rw [Mark.lastToken_other rfl, ← ih]
    rfl

/-- An expiry takes a text away exactly when it bears the token that this text was given. -/
theorem expires_iff (marked : Marked marks notice) {token : Nat} :
    notice.expires token = true ↔
      token = Mark.lastToken marks ∧ ∃ text time, marks.getLast? = some (.set text time) := by
  rw [Notice.expires, Bool.and_eq_true, beq_iff_eq, Option.isSome_iff_exists, marked.token_eq,
    eq_comm]
  exact and_congr_right fun _ => exists_congr fun text => marked.text_eq_some_iff

end Marked

namespace Board

variable {board : Board} {topic : Topic} {marks : List Mark}

theorem marked_apply (marked : Marked marks (board.notice topic)) (time : Nat) (frame : Frame) :
    Marked (marks ++ (topic.mark? time frame).toList) ((board.apply frame).1.notice topic) := by
  cases frame with
  | saveError reason =>
    cases topic with
    | save => exact marked.set reason time
    | combine => exact marked.still
  | combineError reason =>
    cases topic with
    | save => exact marked.still
    | combine => exact marked.set reason time
  | saved component =>
    cases topic with
    | save => exact marked.cleared
    | combine => exact marked.still
  | combineStatus status =>
    cases topic with
    | save => exact marked.still
    | combine => exact marked.cleared
  | systemConfig agents => cases agents <;> cases topic <;> exact marked.still
  | agentRegistered agent =>
    simp only [apply]
    split <;> cases topic <;> exact marked.still
  | _ => cases topic <;> exact marked.still

theorem marked_pushUserMessage (marked : Marked marks (board.notice topic)) (text : String) :
    Marked marks ((board.pushUserMessage text).notice topic) := by
  cases topic <;> exact marked

theorem marked_expire (marked : Marked marks (board.notice topic)) {about : Topic} {token : Nat}
    (shown : board.expires about token = true) :
    Marked (marks ++ (if about = topic then some Mark.expired else none).toList)
      ((board.expire about token).notice topic) := by
  rw [expire, if_pos shown]
  cases about with
  | save =>
    cases topic with
    | save => exact marked.expired
    | combine => exact marked.still
  | combine =>
    cases topic with
    | save => exact marked.still
    | combine => exact marked.expired

/-- A frame has an expiry armed exactly if it brings a text, with the next token. -/
theorem armExpiry_mem_apply {frame : Frame} {token : Nat} :
    .armExpiry topic token ∈ (board.apply frame).2 ↔
      token = (board.notice topic).token + 1 ∧ ∃ text, topic.text? frame = some text := by
  cases frame with
  | saveError reason | combineError reason =>
    cases topic <;> simp [apply, Topic.text?, Notice.set, notice]
  | systemConfig agents => cases agents <;> cases topic <;> simp [apply, Topic.text?]
  | agentRegistered agent =>
    simp only [apply]
    split <;> cases topic <;> simp [Topic.text?]
  | _ => cases topic <;> simp [apply, Topic.text?]

/-! ### Combining -/

/-- While components are being combined, no error of a combination is on show. -/
def IsExclusive (board : Board) : Prop :=
  board.isCombining = true → board.combineError.text = none

theorem IsExclusive.apply (exclusive : board.IsExclusive) (frame : Frame) :
    (board.apply frame).1.IsExclusive := by
  cases frame with
  | combineStatus status =>
    intro _
    rfl
  | combined removed added =>
    intro combining
    cases combining
  | condensed removed added =>
    intro combining
    cases combining
  | combineError reason =>
    intro combining
    cases combining
  | systemConfig agents => cases agents <;> exact exclusive
  | agentRegistered agent =>
    simp only [Board.apply]
    split <;> exact exclusive
  | _ => exact exclusive

theorem IsExclusive.expire (exclusive : board.IsExclusive) (about : Topic) (token : Nat) :
    (board.expire about token).IsExclusive := by
  rw [Board.expire]
  split
  · cases about with
    | save => exact exclusive
    | combine =>
      intro _
      rfl
  · exact exclusive

end Board
end Liveboard.Session
