/-
  Liveboard/Proofs/Session/Pacing.lean
  ====================================
  **How reconnects are paced.**

  The end of a link arms a reconnect, and only a disconnect takes an armed one back.  So
  reconnects pile up exactly when the loop takes notice of the end of a link while one is
  still outstanding, and it comes to that only after a command to connect started a link
  beside it.  Where they do not pile up, an attempt that a reconnect starts keeps the delay
  since the last close; where they do, a leftover reconnect starts one too early.
-/
import Liveboard.Proofs.Session.Outstanding

namespace Liveboard.Session.System

variable {settings : Settings} {system : System} {move : Move} {after : System × List Record}
  {closes : List Close}

/-- The loop takes notice of the end of a link while a reconnect is outstanding. -/
def Overlaps (system : System) (move : Move) : Prop :=
  (system.close? move).isSome = true ∧ 0 < system.world.outstanding

/-- A command to connect starts a link while a reconnect is outstanding. -/
def ConnectsBeside (system : System) (move : Move) : Prop :=
  Takes (.command .connect) system move ∧ Starts system move ∧ 0 < system.world.outstanding

/-- The event of a reconnect starts a link. -/
def Reconnects (system : System) (move : Move) : Prop :=
  Takes (.event (.wake .reconnect)) system move ∧ Starts system move

/-- The delay since the last close is over. -/
def OnTime (settings : Settings) (closes : List Close) (system : System) : Prop :=
  ∀ last, closes.getLast? = some last → last.time + settings.reconnectDelay ≤ system.world.now

/-! ### How many are outstanding -/

theorem Turn.outstanding_le_one_iff (turn : Turn system move after)
    (fine : system.world.outstanding ≤ 1) :
    after.1.world.outstanding ≤ 1 ↔ ¬Overlaps system move := by
  cases closed : system.close? move with
  | none =>
    have bound := turn.outstanding_le
    rw [closed, Option.toList_none, List.length_nil] at bound
    have apart : ¬Overlaps system move := by
      rintro ⟨closes, -⟩
      rw [closed] at closes
      cases closes
    exact iff_of_true (by omega) apart
  | some close =>
    rw [turn.outstanding_of_close closed, Overlaps, closed]
    simp only [Option.isSome_some, true_and]
    omega

theorem outstanding_le_one_iff (fine : system.world.outstanding ≤ 1) (moves : List Move) :
    (∀ earlier, earlier <+: moves → (system.run earlier).1.world.outstanding ≤ 1) ↔
      ¬Sometime Overlaps system moves := by
  induction moves generalizing system with
  | nil =>
    refine iff_of_true (fun earlier within => ?_) id
    rw [List.prefix_nil.mp within]
    exact fine
  | cons move moves ih =>
    have turn := turn_step system move
    rw [Sometime, not_or]
    constructor
    · intro few
      have next : (system.step move).1.world.outstanding ≤ 1 :=
        few [move] (List.prefix_cons_inj move |>.mpr List.nil_prefix)
      refine ⟨(turn.outstanding_le_one_iff fine).mp next, (ih next).mp fun earlier within => ?_⟩
      exact few (move :: earlier) ((List.prefix_cons_inj move).mpr within)
    · rintro ⟨apart, later⟩ earlier within
      have next := (turn.outstanding_le_one_iff fine).mpr apart
      rcases List.prefix_cons_iff.mp within with rfl | ⟨rest, rfl, within⟩
      · exact fine
      · exact (ih next).mpr later rest ((List.prefix_cons_inj move).mp within)

/-- At most one reconnect is outstanding, and none beside a live link. -/
structure Spare (system : System) : Prop where
  outstanding : system.world.outstanding ≤ 1
  live : system.client.connection.isLive = true → system.world.outstanding = 0

theorem Spare.not_overlaps (spare : Spare system) : ¬Overlaps system move := by
  rintro ⟨closes, some⟩
  obtain ⟨close, closed⟩ := Option.isSome_iff_exists.mp closes
  obtain ⟨input, -, ended, -⟩ := of_close? closed
  rw [spare.live (Client.closes_iff.mp ended).1] at some
  cases some

theorem Turn.spare (turn : Turn system move after) (spare : Spare system)
    (alone : ¬ConnectsBeside system move) : Spare after.1 := by
  have few := spare.outstanding
  have next := (turn.outstanding_le_one_iff few).mpr spare.not_overlaps
  have bound := turn.outstanding_le
  refine ⟨next, fun live => ?_⟩
  obtain ⟨closed, ⟨starts, -⟩ | ⟨before, -⟩⟩ := turn.of_isLive live
  · obtain ⟨input, taken, connects⟩ := starts.1
    rw [closed, taken] at bound
    cases input with
    | command command =>
      -- the link was asked for, and by assumption nothing is outstanding beside it
      cases command with
      | connect =>
        have none : system.world.outstanding = 0 :=
          Nat.eq_zero_of_not_pos fun some => alone ⟨taken, starts, some⟩
        simp only [Option.toList_none, List.length_nil] at bound
        omega
      | _ => cases connects
    | event event =>
      -- the link was started by the one reconnect that was outstanding
      have back : (Input.event event).isReconnect = true := by
        rcases event with _ | wake
        · cases connects
        · cases wake <;> first | rfl | cases connects
      simp only [Option.toList_some, List.countP_singleton, back, if_true, Option.toList_none,
        List.length_nil] at bound
      omega
  · rw [closed, spare.live before] at bound
    simp only [Option.toList_none, List.length_nil] at bound
    omega

/-- Reconnects pile up only after a command to connect started a link beside one. -/
theorem Spare.not_sometime_overlaps (spare : Spare system) {moves : List Move}
    (alone : ¬Sometime ConnectsBeside system moves) : ¬Sometime Overlaps system moves := by
  induction moves generalizing system with
  | nil => exact id
  | cons move moves ih =>
    simp only [Sometime, not_or] at alone ⊢
    exact ⟨spare.not_overlaps, ih ((turn_step system move).spare spare alone.1) alone.2⟩

/-! ### When they are due -/

/-- No reconnect is due later than the last close asks for, and while disconnected the one
    of the last close is not lost. -/
structure Timed (settings : Settings) (closes : List Close) (system : System) : Prop where
  same : system.client.connection.settings = settings
  past : ∀ close ∈ closes, close.time ≤ system.world.now
  armed : ∀ alarm ∈ system.world.alarms.armed, alarm.wake = .reconnect →
    ∃ last, closes.getLast? = some last ∧ alarm.due ≤ last.time + settings.reconnectDelay
  waits : system.client.connection.phase = .disconnected →
    ∀ last, closes.getLast? = some last →
      ⟨last.time + settings.reconnectDelay, .reconnect, true⟩ ∈ system.world.alarms.armed ∨
        last.time + settings.reconnectDelay ≤ system.world.now

theorem timed_start (settings : Settings) (credential : Option String) :
    Timed settings [] (start settings credential) := by
  refine ⟨rfl, ?_, ?_, ?_⟩
  · intro close none
    cases none
  · intro alarm none
    cases none
  · intro _ last none
    cases none

theorem Timed.turn (timed : Timed settings closes system) (turn : Turn system move after) :
    Timed settings (closes ++ (system.close? move).toList) after.1 := by
  have later := turn.now_le
  cases closed : system.close? move with
  | none =>
    rw [Option.toList_none, List.append_nil]
    refine ⟨turn.settings.trans timed.same, ?_, ?_, ?_⟩
    · intro close past
      exact Nat.le_trans (timed.past close past) later
    · intro alarm armed back
      rcases turn.of_mem_reconnects armed back with before | ⟨close, some, -⟩
      · exact timed.armed alarm before back
      · rw [closed] at some
        cases some
    · intro phase last isLast
      rcases turn.of_disconnected phase with ⟨close, some⟩ | ⟨-, -, keeps, before, running, -⟩
      · rw [closed] at some
        cases some
      · rcases timed.waits before last isLast with armed | past
        · rcases turn.armed_or_rang running keeps armed with armed | ⟨due, -⟩
          · exact .inl armed
          · exact .inr (Nat.le_trans due later)
        · exact .inr (Nat.le_trans past later)
  | some close =>
    obtain ⟨-, -, -, now⟩ := of_close? closed
    have time : close.time = system.world.now := by rw [now]
    rw [Option.toList_some]
    refine ⟨turn.settings.trans timed.same, ?_, ?_, ?_⟩
    · intro other past
      rcases List.mem_append.mp past with past | same
      · exact Nat.le_trans (timed.past other past) later
      · rw [List.mem_singleton.mp same, time]
        exact later
    · intro alarm armed back
      refine ⟨close, List.getLast?_concat, ?_⟩
      rcases turn.of_mem_reconnects armed back with before | ⟨same, some, rfl⟩
      · obtain ⟨last, isLast, due⟩ := timed.armed alarm before back
        have past := timed.past last (List.mem_of_getLast? isLast)
        omega
      · rw [closed, Option.some.injEq] at some
        exact Nat.le_of_eq (by rw [some, timed.same])
    · intro _ last isLast
      rw [List.getLast?_concat, Option.some.injEq] at isLast
      rw [turn.armed_of_close closed, timed.same, isLast]
      exact .inl (List.mem_append_right _ List.mem_cons_self)

theorem timed_run (settings : Settings) (credential : Option String) (moves : List Move) :
    Timed settings ((start settings credential).closes moves)
      ((start settings credential).run moves).1 := by
  refine history_induction (P := fun history system =>
    Timed settings ((start settings credential).closes history) system) ?_ ?_ moves
  · exact timed_start settings credential
  · intro history move timed
    rw [System.closes, noted_concat]
    exact timed.turn (turn_step _ move)

theorem not_mem_of_outstanding_eq_zero {world : World} (none : world.outstanding = 0) :
    (∀ alarm ∈ world.alarms.armed, alarm.wake ≠ .reconnect) ∧
      .wake .reconnect ∉ world.events := by
  obtain ⟨armed, posted⟩ := Nat.add_eq_zero_iff.mp none
  constructor
  · intro alarm h back
    exact List.countP_eq_zero.mp armed alarm h (Wake.isReconnect_iff.mpr back)
  · intro h
    exact List.countP_eq_zero.mp posted _ h rfl

/-- Every reconnect keeps the delay since the last close. -/
structure Paced (settings : Settings) (closes : List Close) (system : System) : Prop where
  armed : ∀ alarm ∈ system.world.alarms.armed, alarm.wake = .reconnect →
    ∀ last, closes.getLast? = some last → last.time + settings.reconnectDelay ≤ alarm.due
  posted : .wake .reconnect ∈ system.world.events → OnTime settings closes system

theorem Paced.turn (paced : Paced settings closes system) (turn : Turn system move after)
    (same : system.client.connection.settings = settings) (apart : ¬Overlaps system move) :
    Paced settings (closes ++ (system.close? move).toList) after.1 := by
  have later := turn.now_le
  cases closed : system.close? move with
  | none =>
    rw [Option.toList_none, List.append_nil]
    constructor
    · intro alarm armed back
      rcases turn.of_mem_reconnects armed back with before | ⟨close, some, -⟩
      · exact paced.armed alarm before back
      · rw [closed] at some
        cases some
    · intro posted last isLast
      rcases turn.of_posted posted with before | ⟨alarm, armed, back, due⟩
      · exact Nat.le_trans (paced.posted before last isLast) later
      · exact Nat.le_trans (paced.armed alarm armed back last isLast) (Nat.le_trans due later)
  | some close =>
    have none : system.world.outstanding = 0 :=
      Nat.eq_zero_of_not_pos fun some => apart ⟨by rw [closed]; rfl, some⟩
    obtain ⟨noAlarm, noEvent⟩ := not_mem_of_outstanding_eq_zero none
    rw [Option.toList_some]
    constructor
    · intro alarm armed back last isLast
      rw [List.getLast?_concat, Option.some.injEq] at isLast
      rcases turn.of_mem_reconnects armed back with before | ⟨other, some, rfl⟩
      · exact absurd back (noAlarm alarm before)
      · rw [closed, Option.some.injEq] at some
        exact Nat.le_of_eq (by rw [← isLast, some, same])
    · intro posted
      rcases turn.of_posted posted with before | ⟨alarm, armed, back, -⟩
      · exact absurd before noEvent
      · exact absurd back (noAlarm alarm armed)

theorem paced_run (settings : Settings) (credential : Option String) {moves : List Move}
    (apart : ¬Sometime Overlaps (start settings credential) moves) :
    Paced settings ((start settings credential).closes moves)
      ((start settings credential).run moves).1 := by
  refine history_induction (P := fun history system =>
    ¬Sometime Overlaps (start settings credential) history →
      Paced settings ((start settings credential).closes history) system) ?_ ?_ moves apart
  · intro _
    constructor
    · intro alarm none
      cases none
    · intro none
      cases none
  · intro history move paced apart
    rw [sometime_concat, not_or] at apart
    rw [System.closes, noted_concat]
    exact (paced apart.1).turn (turn_step _ move)
      (timed_run settings credential history).same apart.2

theorem spare_start (settings : Settings) (credential : Option String) :
    Spare (start settings credential) := ⟨Nat.zero_le _, fun _ => rfl⟩

/-- **How reconnects are paced.**  At most one is outstanding at every moment of a run
    exactly if no link ends, to the loop's knowledge, while one is.  In such a run every
    attempt that a reconnect starts keeps the delay since the last close.  It is such a run
    unless a command to connect starts a link while a reconnect is outstanding.  In any run
    an attempt made while disconnected keeps the delay exactly if no other reconnect is
    still to come. -/
theorem reconnects_paced_iff (settings : Settings) (credential : Option String)
    (moves : List Move) :
    let system := start settings credential
    let reached := (system.run moves).1
    ((∀ earlier, earlier <+: moves → (system.run earlier).1.world.outstanding ≤ 1) ↔
        ¬Sometime Overlaps system moves) ∧
      (¬Sometime Overlaps system moves →
        ∀ move, Reconnects reached move → OnTime settings (system.closes moves) reached) ∧
      (Sometime Overlaps system moves → Sometime ConnectsBeside system moves) ∧
      (reached.client.connection.phase = .disconnected →
        ∀ move, Reconnects reached move →
          (OnTime settings (system.closes moves) reached ↔
            ∀ alarm ∈ reached.world.alarms.armed, alarm.wake = .reconnect →
              alarm.due ≤ reached.world.now)) := by
  have spare := spare_start settings credential
  refine ⟨outstanding_le_one_iff spare.outstanding moves, ?_, ?_, ?_⟩
  · rintro apart move ⟨taken, -⟩
    obtain ⟨-, -, next⟩ := of_input?_event taken
    exact (paced_run settings credential apart).posted (by rw [next]; exact List.mem_cons_self)
  · intro overlaps
    refine Classical.byContradiction fun alone => ?_
    exact spare.not_sometime_overlaps alone overlaps
  · intro phase move _
    have timed := timed_run settings credential moves
    constructor
    · intro onTime alarm armed back
      obtain ⟨last, isLast, due⟩ := timed.armed alarm armed back
      exact Nat.le_trans due (onTime last isLast)
    · intro none last isLast
      rcases timed.waits phase last isLast with armed | past
      · exact none _ armed rfl
      · exact past

/-- Two attempts that fail one millisecond apart leave two reconnects.  The first of them
    starts a link two milliseconds after the second failure, where the delay is three. -/
theorem early_reconnect_after_explicit_connect :
    let settings : Settings := ⟨"ws://localhost/ui", [], 3, 1, 10, 5⟩
    let moves : List Move :=
      [.submit .connect, .takeCommand, .world (.linkFails 1), .takeEvent "", .world (.wait 1),
        .submit .connect, .takeCommand, .world (.linkFails 2), .takeEvent "",
        .world (.wait 2), .world (.ring 0)]
    let system := start settings (some "token")
    let reached := (system.run moves).1
    reached.world.outstanding = 2 ∧ Reconnects reached (.takeEvent "") ∧
      ¬OnTime settings (system.closes moves) reached ∧ Sometime ConnectsBeside system moves := by
  intro settings moves system reached
  obtain ⟨few, -, beside, onTime_iff⟩ := reconnects_paced_iff settings (some "token") moves
  have two : reached.world.outstanding = 2 := by decide +kernel
  have posted : reached.world.events = [.wake .reconnect] := by decide +kernel
  have running : reached.isRunning = true := by decide +kernel
  have given : reached.credential.isSome = true := by decide +kernel
  have phase : reached.client.connection.phase = .disconnected := by decide +kernel
  have armed : ⟨4, .reconnect, true⟩ ∈
      ((start settings (some "token")).run moves).1.world.alarms.armed := by decide +kernel
  have now : reached.world.now = 3 := by decide +kernel
  have taken : Takes (.event (.wake .reconnect)) reached (.takeEvent "") := by
    rw [Takes, input?, if_pos running, posted]
    rfl
  have free : reached.client.connection.isLive = false :=
    Connection.isLive_eq_false_iff.mpr (.inl phase)
  have reconnects : Reconnects reached (.takeEvent "") := ⟨taken, ⟨_, taken, rfl⟩, given, free⟩
  have late : ¬OnTime settings (system.closes moves) reached := by
    intro onTime
    have due := (onTime_iff phase _ reconnects).mp onTime _ armed rfl
    rw [now] at due
    exact absurd due (by decide)
  have many : ¬∀ earlier, earlier <+: moves → (system.run earlier).1.world.outstanding ≤ 1 := by
    intro one
    have last : reached.world.outstanding ≤ 1 := one moves (List.prefix_refl moves)
    rw [two] at last
    exact absurd last (by decide)
  have overlaps := Classical.not_not.mp (mt few.mpr many)
  exact ⟨two, reconnects, late, beside overlaps⟩

end Liveboard.Session.System
