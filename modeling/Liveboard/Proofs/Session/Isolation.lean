/-
  Liveboard/Proofs/Session/Isolation.lean
  =======================================
  **Links do not get in each other's way.**

  A link that was cut may still have news in the queue, among that of its successor.  The
  loop heeds the news of the current generation only, and only while its link is live: what
  is over stays over (`Turn.isOver`), since an attempt takes a new generation.  So the frames
  the loop dispatches are, link by link, the first that the link received, and a link whose
  end was noticed, or that was given up, is not heard again.
-/
import Liveboard.Proofs.Session.Links
import Liveboard.Proofs.Session.Outstanding

namespace Liveboard.Session

/-! ### Frames that are dispatched -/

/-- A text that the loop dispatched as a frame, and the link it came from. -/
structure Dispatch where
  generation : Nat
  text : String

def Dispatch.textOf? (generation : Nat) (dispatch : Dispatch) : Option String :=
  if dispatch.generation = generation then some dispatch.text else none

namespace Client

variable {client : Client} {generation : Nat} {news : LinkNews}

/-- The frame that the connection hands on when it takes in an event. -/
def dispatches? (client : Client) : Event → Option Dispatch
  | .link generation news =>
    (client.connection.handle generation news "" client.board.activeChat).2.2.map fun text =>
      ⟨generation, text⟩
  | .wake _ => none

theorem dispatches?_of_current (live : client.connection.isLive = true) (news : LinkNews) :
    client.dispatches? (.link client.connection.generation news) =
      news.frame?.map fun text => ⟨client.connection.generation, text⟩ := by
  unfold dispatches? Connection.handle
  rcases news with channel | event
  · simp [live, LinkNews.frame?]
  · cases event <;> simp [live, LinkNews.frame?]

theorem dispatches?_of_late
    (late : generation ≠ client.connection.generation ∨ client.connection.isLive = false) :
    client.dispatches? (.link generation news) = none := by
  have handled := Connection.handled_handle client.connection generation news ""
    client.board.activeChat
  rw [dispatches?]
  revert handled
  generalize client.connection.handle generation news "" client.board.activeChat = result
  intro handled
  cases handled with
  | frame current live =>
    rcases late with other | free
    · exact absurd current other
    · rw [live] at free
      cases free
  | _ => rfl

/-- What is dispatched is a frame of the current link. -/
theorem of_dispatches {dispatch : Dispatch}
    (given : client.dispatches? (.link generation news) = some dispatch) :
    client.connection.isLive = true ∧ generation = client.connection.generation ∧
      ∃ text, news = .reported (.frame text) ∧ dispatch = ⟨generation, text⟩ := by
  by_cases late : generation ≠ client.connection.generation ∨ client.connection.isLive = false
  · rw [dispatches?_of_late late] at given
    cases given
  · rw [not_or, Decidable.not_not, Bool.not_eq_false] at late
    obtain ⟨rfl, live⟩ := late
    rw [dispatches?_of_current live] at given
    obtain ⟨text, said, rfl⟩ := Option.map_eq_some_iff.mp given
    refine ⟨live, rfl, text, ?_, rfl⟩
    rcases news with channel | event
    · cases said
    · cases event <;> cases said
      rfl

/-- What is noted as dispatched is what the loop dispatches. -/
theorem onNews_of_dispatches {dispatch : Dispatch}
    (given : client.dispatches? (.link generation news) = some dispatch) (sessionId : String) :
    client.onNews generation news sessionId = client.dispatch dispatch.text := by
  obtain ⟨live, rfl, text, rfl, rfl⟩ := of_dispatches given
  unfold onNews Connection.handle
  simp [live]

/-- News that is not dispatched concerns the connection alone. -/
theorem onNews_of_nothing (nothing : client.dispatches? (.link generation news) = none)
    (sessionId : String) :
    (client.onNews generation news sessionId).1 =
      { client with
        connection := (client.onNews generation news sessionId).1.connection } := by
  have handled := Connection.handled_handle client.connection generation news sessionId
    client.board.activeChat
  unfold onNews
  revert handled
  generalize client.connection.handle generation news sessionId client.board.activeChat = result
  intro handled
  cases handled with
  | frame current live =>
    rw [current, dispatches?_of_current live] at nothing
    cases nothing
  | _ => rfl

/-- Late news lets go of a queue at most. -/
theorem onNews_of_late
    (late : generation ≠ client.connection.generation ∨ client.connection.isLive = false)
    (news : LinkNews) (sessionId : String) :
    ∃ channels : List Nat,
      client.onNews generation news sessionId = (client, channels.map .release) := by
  have handled := Connection.handled_handle client.connection generation news sessionId
    client.board.activeChat
  unfold onNews
  revert handled
  generalize client.connection.handle generation news sessionId client.board.activeChat = result
  intro handled
  cases handled with
  | stale channels => exact ⟨channels, rfl⟩
  | opened current live | frame current live | closed current live =>
    rcases late with other | free
    · exact absurd current other
    · rw [live] at free
      cases free

end Client

theorem World.alarms_release (world : World) (channels : List Nat) :
    (world.performAll (channels.map .release)).1.alarms = world.alarms := by
  induction channels generalizing world with
  | nil => rfl
  | cons channel channels ih => rw [List.map_cons, World.fst_performAll_cons, ih]; rfl

namespace System

variable {system : System} {move : Move} {after : System × List Record} {generation : Nat}
  {posted taken : List Event} {heard : List Dispatch} {closes : List Close}

/-- The frame that the loop dispatches by a move. -/
def dispatches? (system : System) (move : Move) : Option Dispatch :=
  (system.takes? move).bind system.client.dispatches?

/-- The frames of a link that the loop dispatches in the course of a run. -/
def dispatched (system : System) (generation : Nat) (moves : List Move) : List String :=
  (system.noted dispatches? moves).filterMap (Dispatch.textOf? generation)

/-! ### Links that are over -/

/-- The link of this generation is not heard again. -/
def IsOver (generation : Nat) (system : System) : Prop :=
  generation < system.client.connection.generation ∨
    generation = system.client.connection.generation ∧ system.client.connection.isLive = false

/-- The move ends the link of a generation for the loop: it takes notice that the link
    closed, disconnects, or starts another. -/
inductive Ends (generation : Nat) (system : System) (move : Move) : Prop where
  | closed {close : Close} (closes : system.close? move = some close)
      (same : close.generation = generation)
  | disconnected (taken : Takes (.command .disconnect) system move)
      (begun : generation ≤ system.client.connection.generation)
  | superseded (starts : Starts system move)
      (begun : generation ≤ system.client.connection.generation)

theorem IsOver.late (gone : IsOver generation system) :
    generation ≠ system.client.connection.generation ∨ system.client.connection.isLive = false :=
  gone.imp Nat.ne_of_lt And.right

theorem Turn.isOver (turn : Turn system move after) (gone : IsOver generation system) :
    IsOver generation after.1 := by
  have least := turn.generation_le
  rcases gone with earlier | ⟨current, free⟩
  · exact .inl (Nat.lt_of_lt_of_le earlier least)
  · cases live : after.1.client.connection.isLive with
    | false => exact (Nat.lt_or_eq_of_le (current ▸ least)).imp_right fun same => ⟨same, live⟩
    | true =>
      rcases (turn.of_isLive live).2 with ⟨-, grown⟩ | ⟨before, -⟩
      · exact .inl (by omega)
      · rw [free] at before
        cases before

theorem IsOver.run {moves : List Move} (gone : IsOver generation (system.run moves).1)
    (later : List Move) : IsOver generation (system.run (moves ++ later)).1 := by
  rw [run_append]
  exact run_induction gone Turn.isOver later

theorem IsOver.not_isLive (gone : IsOver generation system)
    (current : generation = system.client.connection.generation) :
    system.client.connection.isLive = false :=
  gone.late.resolve_left (Classical.not_not.mpr current)

theorem Turn.isOver_of_ends (turn : Turn system move after) (ends : Ends generation system move) :
    IsOver generation after.1 := by
  cases ends with
  | @closed close closes same =>
    rcases turn.course with ⟨-, none, -⟩ | ⟨-, some, current, -, phase, kept⟩ | ⟨-, none, -⟩ |
      ⟨-, none, -⟩
    · rw [closes] at none
      cases none
    · rw [closes, Option.some.injEq] at some
      subst some
      exact .inr ⟨by rw [← same, current, kept], Connection.isLive_eq_false_iff.mpr (.inl phase)⟩
    · rw [closes] at none
      cases none
    · rw [closes] at none
      cases none
  | disconnected taken begun =>
    obtain ⟨sessionId, rfl⟩ := turn.of_takes taken (by simp)
    rw [IsOver, client_carryOut]
    exact (Nat.lt_or_eq_of_le begun).imp_right fun same => ⟨same, rfl⟩
  | superseded starts begun =>
    rcases turn.attempts with ⟨-, grown, -⟩ | ⟨still, -⟩
    · exact .inl (by omega)
    · exact absurd starts still

theorem isOver_run {moves : List Move} (ended : Sometime (Ends generation) system moves) :
    IsOver generation (system.run moves).1 := by
  induction moves generalizing system with
  | nil => cases ended
  | cons move moves ih =>
    rcases ended with ends | later
    · exact run_induction ((turn_step system move).isOver_of_ends ends) Turn.isOver moves
    · exact ih later

/-- News of a link that is over changes neither the client nor an alarm. -/
theorem Turn.of_isOver {news : LinkNews} (turn : Turn system move after)
    (gone : IsOver generation system) (taken : Takes (.event (.link generation news)) system move) :
    after.1.client = system.client ∧ after.1.world.alarms = system.world.alarms := by
  obtain ⟨sessionId, rfl⟩ := turn.of_takes taken (by simp)
  obtain ⟨channels, same⟩ := Client.onNews_of_late gone.late news sessionId
  rw [client_carryOut, world_carryOut, Client.handle, Client.onEvent, same,
    World.alarms_release, alarms_without]
  exact ⟨rfl, rfl⟩

/-! ### Which frames are heard, and in which order -/

/-- Of the frames of a link that were taken, the loop dispatched the first ones; and all of
    them while the link is current and live. -/
structure Heeds (generation : Nat) (taken : List Event) (heard : List Dispatch)
    (system : System) : Prop where
  within : heard.filterMap (Dispatch.textOf? generation) <+: frames generation taken
  current : generation = system.client.connection.generation →
    system.client.connection.isLive = true →
      heard.filterMap (Dispatch.textOf? generation) = frames generation taken

theorem frames_of_starts (starts : Starts system move) (generation : Nat) :
    frames generation (system.takes? move).toList = [] := by
  obtain ⟨⟨input, taken, connects⟩, -⟩ := starts
  rw [takes?, taken]
  rcases input with command | _ | wake
  · rfl
  · cases connects
  · rfl

theorem dispatches?_of_ne {client : Client} {other : Nat} (ne : other ≠ generation)
    (news : LinkNews) :
    (client.dispatches? (.link other news)).toList.filterMap (Dispatch.textOf? generation) = [] := by
  rw [Client.dispatches?]
  cases (client.connection.handle other news "" client.board.activeChat).2.2 with
  | none => rfl
  | some text => simp [Dispatch.textOf?, ne]

/-- A frame of the current link is dispatched as it is taken. -/
theorem dispatches?_of_live (live : system.client.connection.isLive = true) (move : Move) :
    (system.dispatches? move).toList.filterMap
        (Dispatch.textOf? system.client.connection.generation) =
      frames system.client.connection.generation (system.takes? move).toList := by
  rw [dispatches?]
  rcases system.takes? move with _ | ⟨other, news⟩ | wake
  · rfl
  · rw [Option.bind_some, Option.toList_some, frames_singleton]
    by_cases same : other = system.client.connection.generation
    · subst same
      rw [Client.dispatches?_of_current live, if_pos rfl]
      cases news.frame? <;> simp [Dispatch.textOf?]
    · rw [if_neg same, dispatches?_of_ne same]
  · rfl

theorem dispatches?_of_late (late : generation ≠ system.client.connection.generation ∨
      system.client.connection.isLive = false) (move : Move) :
    (system.dispatches? move).toList.filterMap (Dispatch.textOf? generation) = [] := by
  rw [dispatches?]
  rcases system.takes? move with _ | ⟨other, news⟩ | wake
  · rfl
  · rw [Option.bind_some]
    by_cases same : other = generation
    · subst same
      rw [Client.dispatches?_of_late late]
      rfl
    · exact dispatches?_of_ne same news
  · rfl

theorem Heeds.turn (heeds : Heeds generation taken heard system) (turn : Turn system move after)
    (fresh : frames (system.client.connection.generation + 1) taken = []) :
    Heeds generation (taken ++ (system.takes? move).toList)
      (heard ++ (system.dispatches? move).toList) after.1 := by
  constructor
  · rw [List.filterMap_append, frames_append]
    by_cases current : generation = system.client.connection.generation ∧
        system.client.connection.isLive = true
    · obtain ⟨rfl, live⟩ := current
      exact ⟨[], by rw [heeds.current rfl live, dispatches?_of_live live, List.append_nil]⟩
    · have late : generation ≠ system.client.connection.generation ∨
          system.client.connection.isLive = false := by
        rw [← Bool.not_eq_true]
        exact Decidable.not_and_iff_or_not.mp current
      rw [dispatches?_of_late late, List.append_nil]
      exact heeds.within.trans (List.prefix_append _ _)
  · intro same live
    rw [List.filterMap_append, frames_append]
    rcases (turn.of_isLive live).2 with ⟨starts, grown⟩ | ⟨before, kept⟩
    · -- the link was just started, and nothing of it can have been taken
      rw [grown] at same
      subst same
      have none := heeds.within
      rw [fresh, List.prefix_nil] at none
      rw [none, fresh, frames_of_starts starts, dispatches?_of_late (.inl (Nat.succ_ne_self _))]
    · rw [kept] at same
      subst same
      rw [heeds.current rfl before, dispatches?_of_live before]

/-- A link that was not started was not heard. -/
theorem frames_fresh (settings : Settings) (credential : Option String) (moves : List Move)
    {generation : Nat}
    (fresh : ((start settings credential).run moves).1.client.connection.generation < generation) :
    frames generation ((start settings credential).noted takes? moves) = [] := by
  have absent : generation ∉ ((start settings credential).run moves).1.world.generations := by
    obtain ⟨count, grown, attempts⟩ := attempts_run (start settings credential) moves
    have none : (start settings credential).client.connection.generation = 0 := rfl
    rw [generations_run, attempts]
    intro started
    rcases List.mem_append.mp started with before | later
    · cases before
    · rw [List.mem_range'_1] at later
      omega
  have spoken := spoken_run settings credential generation moves
  rw [World.linkPhase?_eq_none absent] at spoken
  have silent : (start settings credential).reports generation moves = [] := spoken
  have within := frames_mono (queued_run settings credential moves).inOrder generation
  rw [reports] at silent
  rw [frames, frames, silent] at within
  exact List.prefix_nil.mp within

theorem heeds_run (settings : Settings) (credential : Option String) (generation : Nat)
    (moves : List Move) :
    Heeds generation ((start settings credential).noted takes? moves)
      ((start settings credential).noted dispatches? moves)
      ((start settings credential).run moves).1 := by
  refine history_induction (P := fun history system =>
    Heeds generation ((start settings credential).noted takes? history)
      ((start settings credential).noted dispatches? history) system) ?_ ?_ moves
  · exact ⟨List.prefix_refl _, fun _ _ => rfl⟩
  · intro history move heeds
    rw [noted_concat, noted_concat]
    exact heeds.turn (turn_step _ move)
      (frames_fresh settings credential history (Nat.lt_succ_self _))

/-! ### One generation after the other -/

theorem generation_of_dispatches? {dispatch : Dispatch}
    (dispatches : system.dispatches? move = some dispatch) :
    dispatch.generation = system.client.connection.generation := by
  obtain ⟨event, -, given⟩ := Option.bind_eq_some_iff.mp dispatches
  rcases event with ⟨other, news⟩ | wake
  · by_cases same : other = system.client.connection.generation
    · obtain ⟨text, -, rfl⟩ := Option.map_eq_some_iff.mp given
      exact same
    · rw [Client.dispatches?_of_late (.inl same)] at given
      cases given
  · cases given

/-- Frames are dispatched in the order of their links. -/
structure InOrder (heard : List Dispatch) (system : System) : Prop where
  sorted : (heard.map Dispatch.generation).Pairwise (· ≤ ·)
  begun : ∀ dispatch ∈ heard, dispatch.generation ≤ system.client.connection.generation

theorem InOrder.turn (inOrder : InOrder heard system) (turn : Turn system move after) :
    InOrder (heard ++ (system.dispatches? move).toList) after.1 := by
  have least := turn.generation_le
  cases dispatches : system.dispatches? move with
  | none =>
    rw [Option.toList_none, List.append_nil]
    exact ⟨inOrder.sorted, fun dispatch h => Nat.le_trans (inOrder.begun dispatch h) least⟩
  | some new =>
    have current := generation_of_dispatches? dispatches
    rw [Option.toList_some]
    constructor
    · rw [List.map_append, List.pairwise_append]
      refine ⟨inOrder.sorted, List.pairwise_singleton _ _, ?_⟩
      intro generation before later isNew
      obtain ⟨dispatch, h, rfl⟩ := List.mem_map.mp before
      rw [List.mem_singleton.mp isNew, current]
      exact inOrder.begun dispatch h
    · intro dispatch h
      rcases List.mem_append.mp h with h | isNew
      · exact Nat.le_trans (inOrder.begun dispatch h) least
      · rw [List.mem_singleton.mp isNew, current]
        exact least

theorem inOrder_run (settings : Settings) (credential : Option String) (moves : List Move) :
    InOrder ((start settings credential).noted dispatches? moves)
      ((start settings credential).run moves).1 := by
  refine history_induction (P := fun history system =>
    InOrder ((start settings credential).noted dispatches? history) system) ?_ ?_ moves
  · exact ⟨List.Pairwise.nil, fun dispatch none => nomatch none⟩
  · intro history move inOrder
    rw [noted_concat]
    exact inOrder.turn (turn_step _ move)

/-- Links end one after the other, each once. -/
structure OneByOne (closes : List Close) (system : System) : Prop where
  sorted : (closes.map Close.generation).Pairwise (· < ·)
  gone : ∀ close ∈ closes, IsOver close.generation system

theorem OneByOne.turn (oneByOne : OneByOne closes system) (turn : Turn system move after) :
    OneByOne (closes ++ (system.close? move).toList) after.1 := by
  cases closed : system.close? move with
  | none =>
    rw [Option.toList_none, List.append_nil]
    exact ⟨oneByOne.sorted, fun close h => turn.isOver (oneByOne.gone close h)⟩
  | some new =>
    obtain ⟨input, -, ended, current⟩ := of_close? closed
    have live := (Client.closes_iff.mp ended).1
    rw [Option.toList_some]
    constructor
    · rw [List.map_append, List.pairwise_append]
      refine ⟨oneByOne.sorted, List.pairwise_singleton _ _, ?_⟩
      intro generation before later isNew
      obtain ⟨close, h, rfl⟩ := List.mem_map.mp before
      rw [List.mem_singleton.mp isNew, current]
      -- the link that ends now is live, and so none of those that are over
      rcases oneByOne.gone close h with earlier | ⟨-, free⟩
      · exact earlier
      · rw [live] at free
        cases free
    · intro close h
      rcases List.mem_append.mp h with h | isNew
      · exact turn.isOver (oneByOne.gone close h)
      · rw [List.mem_singleton.mp isNew]
        exact turn.isOver_of_ends (.closed closed rfl)

theorem oneByOne_run (settings : Settings) (credential : Option String) (moves : List Move) :
    OneByOne ((start settings credential).closes moves)
      ((start settings credential).run moves).1 := by
  refine history_induction (P := fun history system =>
    OneByOne ((start settings credential).closes history) system) ?_ ?_ moves
  · exact ⟨List.Pairwise.nil, fun close none => nomatch none⟩
  · intro history move oneByOne
    rw [System.closes, noted_concat]
    exact oneByOne.turn (turn_step _ move)

theorem countP_takes? (kind : Wake → Bool) (system : System) (move : Move) :
    (system.takes? move).toList.countP (Event.wakes kind) =
      (system.input? move).toList.countP (Input.wakes kind) := by
  rw [takes?]
  rcases system.input? move with _ | _ | _ <;> rfl

/-- If every move that arms a timer of some kind is noted, and arms one, then there are no more
    of them pending and taken than notes. -/
theorem pending_run {β : Type} {note? : System → Move → Option β} {kind : Wake → Bool}
    (arms : ∀ system move input sessionId, Takes input system move →
      ((system.client.handle system.credential sessionId input).2.filterMap
        (Order.alarm? system.world.now)).countP (fun alarm => kind alarm.wake) ≤
          (note? system move).toList.length)
    (settings : Settings) (credential : Option String) (moves : List Move) :
    ((start settings credential).run moves).1.world.pending kind +
        ((start settings credential).noted takes? moves).countP (Event.wakes kind) ≤
      ((start settings credential).noted note? moves).length := by
  refine history_induction (P := fun history system =>
    system.world.pending kind +
        ((start settings credential).noted takes? history).countP (Event.wakes kind) ≤
      ((start settings credential).noted note? history).length) ?_ ?_ moves
  · exact Nat.le_refl _
  · intro history move bound
    have next := (turn_step ((start settings credential).run history).1 move).pending_le kind
      (arms _ move)
    rw [← countP_takes?] at next
    rw [noted_concat, noted_concat, List.countP_append, List.length_append]
    omega

/-- Every reconnect that is outstanding, or whose event was taken, was armed for a close of
    its own. -/
theorem outstanding_run (settings : Settings) (credential : Option String) (moves : List Move) :
    ((start settings credential).run moves).1.world.outstanding +
        ((start settings credential).noted takes? moves).countP Event.isReconnect ≤
      ((start settings credential).closes moves).length := by
  rw [World.outstanding_eq_pending, Event.isReconnect_eq_wakes]
  refine pending_run (fun system move input sessionId taken => ?_) settings credential moves
  rw [length_close?_of_takes taken]
  exact Nat.le_of_eq (Client.countP_alarms_handle sessionId system.world.now)

/-! ### All of it -/

/-- What keeps the links of a run apart. -/
structure Isolated (system : System) (moves : List Move) : Prop where
  /-- A link posts that it opened, then its frames, then at most one last report. -/
  scripted : ∀ generation, Script (system.reports generation moves)
  /-- A frame is noted as dispatched when the loop dispatches it, as one of the link it came
      from, -/
  dispatches : ∀ generation news sessionId dispatch,
    (system.run moves).1.client.dispatches? (.link generation news) = some dispatch →
      dispatch.generation = generation ∧ news.frame? = some dispatch.text ∧
        (system.run moves).1.client.onNews generation news sessionId =
          (system.run moves).1.client.dispatch dispatch.text
  /-- and news with which none is noted concerns the connection alone. -/
  undispatched : ∀ generation news sessionId,
    (system.run moves).1.client.dispatches? (.link generation news) = none →
      ((system.run moves).1.client.onNews generation news sessionId).1 =
        { (system.run moves).1.client with
          connection := ((system.run moves).1.client.onNews generation news sessionId).1.connection }
  /-- The frames of a link that are dispatched are the first ones it received. -/
  heeded : ∀ generation, system.dispatched generation moves <+: system.received generation moves
  /-- While a link is live, all of its frames that the loop took are dispatched. -/
  prompt : (system.run moves).1.client.connection.isLive = true →
    system.dispatched (system.run moves).1.client.connection.generation moves =
      frames (system.run moves).1.client.connection.generation (system.noted takes? moves)
  /-- No frame is dispatched after one of a later link. -/
  ordered : ((system.noted dispatches? moves).map Dispatch.generation).Pairwise (· ≤ ·)
  /-- Once a link ended for the loop, its news changes neither the client nor an alarm. -/
  silenced : ∀ generation, Sometime (Ends generation) system moves →
    ∀ news move, Takes (.event (.link generation news)) (system.run moves).1 move →
      ((system.run moves).1.step move).1.client = (system.run moves).1.client ∧
        ((system.run moves).1.step move).1.world.alarms = (system.run moves).1.world.alarms
  /-- The loop takes notice of the end of a link at most once. -/
  once : ((system.closes moves).map Close.generation).Pairwise (· < ·)
  /-- Each time, at most one reconnect is armed. -/
  armed : (system.run moves).1.world.outstanding +
      (system.noted takes? moves).countP Event.isReconnect ≤ (system.closes moves).length

/-- **Links do not get in each other's way**, whatever the order in which links, timers,
    callers and the loop move. -/
theorem links_isolated (settings : Settings) (credential : Option String) (moves : List Move) :
    Isolated (start settings credential) moves where
  scripted generation := (spoken_run settings credential generation moves).script
  dispatches _ _ sessionId _ given := by
    have dispatched := Client.onNews_of_dispatches given sessionId
    obtain ⟨-, -, text, rfl, rfl⟩ := Client.of_dispatches given
    exact ⟨rfl, rfl, dispatched⟩
  undispatched _ _ sessionId nothing := Client.onNews_of_nothing nothing sessionId
  heeded generation :=
    (heeds_run settings credential generation moves).within.trans
      (frames_mono (queued_run settings credential moves).inOrder generation)
  prompt := (heeds_run settings credential _ moves).current rfl
  ordered := (inOrder_run settings credential moves).sorted
  silenced _ ended _ move taken := (turn_step _ move).of_isOver (isOver_run ended) taken
  once := (oneByOne_run settings credential moves).sorted
  armed := outstanding_run settings credential moves

end System
end Liveboard.Session
