/-
  Liveboard/Proofs/Session/Outbound.lean
  ======================================
  **What a server gets to read on a link.**

  The queue of a link is offered the handshake when the loop takes notice that the link
  opened, and then actions under the same session id, for as long as the link is current
  (`Wired`).  What it accepts of that begins with the registration, which bears the
  credential that was read for this link, and then the request for the history; nothing is
  accepted before the link opened or after it ended for the loop (`outgoing_run`).
-/
import Liveboard.Proofs.Session.Openings
import Liveboard.Proofs.Session.Sending

namespace Liveboard.Session

/-! ### The frames of a link -/

/-- The handshake under a session id, and then actions. -/
def talk (capabilities : List String) (sessionId token : String) (actions : List Action) :
    List Envelope :=
  .registration sessionId token capabilities :: .ofAction .getHistory (some sessionId) ::
    actions.map fun action => .ofAction action (some sessionId)

theorem talk_append (capabilities : List String) (sessionId token : String)
    (actions later : List Action) :
    talk capabilities sessionId token actions ++
        later.map (fun action => .ofAction action (some sessionId)) =
      talk capabilities sessionId token (actions ++ later) := by
  simp [talk]

/-- What a queue may have accepted: a registration with a credential that was given, then the
    request for the history, and then actions, all under one session id. -/
inductive Transcript (capabilities : List String) (given : String → Prop) :
    List Envelope → Prop where
  | silent : Transcript capabilities given []
  | registered (sessionId : String) {token : String} (is : given token) :
      Transcript capabilities given [.registration sessionId token capabilities]
  | spoken (sessionId : String) {token : String} (is : given token) (actions : List Action) :
      Transcript capabilities given (talk capabilities sessionId token actions)

/-- A queue with room for the handshake accepts a transcript. -/
theorem transcript_of_talk {capabilities : List String} {given : String → Prop}
    {sessionId token : String} {actions : List Action} {accepted : List Envelope} {capacity : Nat}
    (is : given token) (roomy : 2 ≤ capacity)
    (part : accepted.Sublist (talk capabilities sessionId token actions))
    (first : accepted.take capacity <+: talk capabilities sessionId token actions) :
    Transcript capabilities given accepted := by
  obtain ⟨room, rfl⟩ := Nat.exists_eq_add_of_le' roomy
  match accepted with
  | [] => exact .silent
  | [registration] =>
    rw [talk, List.take_succ_cons, List.take_nil, List.cons_prefix_cons] at first
    obtain ⟨rfl, -⟩ := first
    exact .registered sessionId is
  | registration :: history :: rest =>
    rw [talk, List.take_succ_cons, List.take_succ_cons, List.cons_prefix_cons,
      List.cons_prefix_cons] at first
    obtain ⟨rfl, rfl, -⟩ := first
    rw [talk, List.cons_sublist_cons, List.cons_sublist_cons, List.sublist_map_iff] at part
    obtain ⟨heard, -, rfl⟩ := part
    exact .spoken sessionId is heard

namespace System

variable {system : System} {move : Move} {after : System × List Record}

/-- The move starts the link of a generation, with this credential. -/
def Attempts (generation : Nat) (token : String) (system : System) (move : Move) : Prop :=
  Starts system move ∧ system.client.connection.generation + 1 = generation ∧
    system.credential = some token

/-- The loop takes notice that the link of a generation opened, with this queue. -/
def Opens (generation index : Nat) (system : System) (move : Move) : Prop :=
  Takes (.event (.link generation (.opened index))) system move

/-- What a queue is offered in the course of a run. -/
def offered (system : System) (index : Nat) (moves : List Move) : List Envelope :=
  (system.run moves).2.filterMap (Record.offered? index)

/-- What a queue accepts in the course of a run. -/
def accepted (system : System) (index : Nat) (moves : List Move) : List Envelope :=
  (system.run moves).2.filterMap (Record.accepted? index)

theorem generation_lt_of_attempts {generation : Nat} {token : String} {moves : List Move}
    (attempted : Sometime (Attempts generation token) system moves) :
    system.client.connection.generation < generation := by
  induction moves generalizing system with
  | nil => cases attempted
  | cons move moves ih =>
    rcases attempted with ⟨-, next, -⟩ | later
    · omega
    · exact Nat.lt_of_le_of_lt (turn_step system move).generation_le (ih later)

/-- A generation is attempted once, so with one credential. -/
theorem eq_of_attempts {generation : Nat} {token other : String} {moves : List Move}
    (first : Sometime (Attempts generation token) system moves)
    (second : Sometime (Attempts generation other) system moves) : token = other := by
  induction moves generalizing system with
  | nil => cases first
  | cons move moves ih =>
    have grown : ∀ {token}, Attempts generation token system move →
        (system.step move).1.client.connection.generation = generation := by
      rintro token ⟨starts, next, -⟩
      rcases (turn_step system move).attempts with ⟨-, grown, -⟩ | ⟨still, -⟩
      · exact grown.trans next
      · exact absurd starts still
    rcases first with first | first
    · rcases second with second | second
      · exact Option.some.inj (first.2.2.symm.trans second.2.2)
      · have least := generation_lt_of_attempts second
        rw [grown first] at least
        exact absurd least (Nat.lt_irrefl generation)
    · rcases second with second | second
      · have least := generation_lt_of_attempts first
        rw [grown second] at least
        exact absurd least (Nat.lt_irrefl generation)
      · exact ih first second

/-! ### One turn -/

/-- What a turn makes of the connection, and what it offers.  A turn that hands the loop
    nothing does what a shutdown does to a client: nothing. -/
theorem Turn.sends (turn : Turn system move after) :
    ∃ input sessionId orders,
      (Takes input system move ∨ input = .command .shutdown) ∧
        Client.Sends system.client system.credential sessionId input
          after.1.client.connection orders ∧
        ∀ index, after.2.filterMap (Record.offered? index) =
          orders.filterMap (Order.offered? index) := by
  have quiet : Client.Sends system.client system.credential "" (.command .shutdown)
      system.client.connection [] := Client.sends_nothing rfl
  cases turn with
  | @handled move input sessionId taken goesOn =>
    have sends := system.client.sends_handle system.credential sessionId input
    refine ⟨input, sessionId, _, .inl taken, by rw [client_carryOut]; exact sends, ?_⟩
    intro index
    rw [records_carryOut, World.filterMap_performAll (World.offered_perform index),
      filterMap_offered?_filter]
  | @ending left running next =>
    refine ⟨.command .shutdown, "", [], .inr rfl, ?_, ?_⟩
    · rw [client_stop]
      exact .shuts (Connection.keeps_disconnect system.client.connection).agrees rfl
    · intro index
      rw [records_stop, List.filterMap_append,
        World.filterMap_performAll (World.offered_perform index), ← filterMap_offered?_filter,
        filter_lastOrders, World.filterMap_deafen (World.offered_perform index) fun _ => rfl]
      rfl
  | surroundings move => exact ⟨_, _, _, .inr rfl, quiet, fun _ => rfl⟩
  | submission nothing => exact ⟨_, _, _, .inr rfl, quiet, fun _ => rfl⟩
  | idle nothing => exact ⟨_, _, _, .inr rfl, quiet, fun _ => rfl⟩

theorem Turn.accounts {index : Nat} {offered accepted : List Envelope}
    (turn : Turn system move after) (accounts : system.world.Accounts index offered accepted)
    (fresh : index = system.world.channels.length → offered = []) :
    after.1.world.Accounts index (offered ++ after.2.filterMap (Record.offered? index))
      (accepted ++ after.2.filterMap (Record.accepted? index)) := by
  cases turn with
  | @handled move input sessionId taken goesOn =>
    have before : (system.without input).world.Accounts index offered accepted :=
      accounts.of_channels (by cases input <;> rfl)
    rw [world_carryOut, records_carryOut]
    exact before.performAll _
  | ending running next =>
    rw [world_stop, records_stop, List.filterMap_append, List.filterMap_append,
      ← List.append_assoc, ← List.append_assoc]
    exact (accounts.performAll _).deafen
  | surroundings move =>
    rw [List.filterMap_nil, List.filterMap_nil, List.append_nil, List.append_nil]
    exact accounts.step move fresh
  | submission | idle =>
    rw [List.filterMap_nil, List.filterMap_nil, List.append_nil, List.append_nil]
    exact accounts

/-! ### Runs -/

section wired

variable {origin : System} {history : List Move} {index generation : Nat} {sessionId : String}
  {connection : Connection} {client : Client}

/-- The queue is that of a link which opened, and was offered the handshake with the
    credential read for this link, and then actions. -/
structure Conversed (origin : System) (history : List Move) (index generation : Nat)
    (sessionId : String) : Prop where
  opened : .link generation (.opened index) ∈ origin.noted takes? history
  talked : ∃ token actions, Sometime (Attempts generation token) origin history ∧
    origin.offered index history =
      talk origin.client.connection.settings.capabilities sessionId token actions

theorem Conversed.goesOn (conversed : Conversed origin history index generation sessionId)
    (actions : List Action)
    (said : ((origin.run history).1.step move).2.filterMap (Record.offered? index) =
      actions.map fun action => .ofAction action (some sessionId)) :
    Conversed origin (history ++ [move]) index generation sessionId := by
  obtain ⟨token, earlier, attempted, same⟩ := conversed.talked
  constructor
  · rw [noted_concat]
    exact List.mem_append_left _ conversed.opened
  · refine ⟨token, earlier ++ actions, sometime_concat.mpr (.inl attempted), ?_⟩
    rw [offered, filterMap_run_concat, said, ← offered, same, talk_append]

/-- The connection agrees with itself and with what its queue was offered so far. -/
structure Wired (origin : System) (history : List Move) (connection : Connection) : Prop where
  agrees : connection.Agrees
  token : connection.isLive = true → ∃ token, connection.token = some token ∧
    Sometime (Attempts connection.generation token) origin history
  held : ∀ index, connection.outbound = some index →
    ∃ sessionId, connection.sessionId = some sessionId ∧
      Conversed origin history index connection.generation sessionId
  told : ∀ index, origin.offered index history = [] ∨
    ∃ generation sessionId, Conversed origin history index generation sessionId

namespace Wired

theorem token_concat (wired : Wired origin history connection)
    (live : connection.isLive = true) (move : Move) :
    ∃ token, connection.token = some token ∧
      Sometime (Attempts connection.generation token) origin (history ++ [move]) := by
  obtain ⟨token, given, attempted⟩ := wired.token live
  exact ⟨token, given, sometime_concat.mpr (.inl attempted)⟩

theorem told_concat (wired : Wired origin history connection)
    (silent : ((origin.run history).1.step move).2.filterMap (Record.offered? index) = []) :
    origin.offered index (history ++ [move]) = [] ∨
      ∃ generation sessionId, Conversed origin (history ++ [move]) index generation sessionId := by
  rcases wired.told index with none | ⟨generation, sessionId, conversed⟩
  · refine .inl ?_
    rw [offered, filterMap_run_concat, silent, List.append_nil]
    exact none
  · exact .inr ⟨generation, sessionId, conversed.goesOn [] silent⟩

/-- The handshake is the first that the queue of a link is offered. -/
theorem conversed_of_opens (wired : Wired origin history connection)
    (live : connection.isLive = true)
    (same : connection.settings = origin.client.connection.settings)
    (opens : Opens connection.generation index (origin.run history).1 move)
    (fresh : ∀ other, .link other (.opened index) ∉ origin.noted takes? history)
    (said : ((origin.run history).1.step move).2.filterMap (Record.offered? index) =
      [.registration sessionId (connection.token.getD "") connection.settings.capabilities,
        .ofAction .getHistory (some sessionId)]) :
    Conversed origin (history ++ [move]) index connection.generation sessionId := by
  obtain ⟨token, given, attempted⟩ := wired.token_concat live move
  have unheard : origin.offered index history = [] := by
    rcases wired.told index with none | ⟨earlier, other, conversed⟩
    · exact none
    · exact absurd conversed.opened (fresh earlier)
  constructor
  · rw [noted_concat, takes?_eq_some_iff.mpr opens]
    exact List.mem_append_right _ List.mem_cons_self
  · refine ⟨token, [], attempted, ?_⟩
    rw [offered, filterMap_run_concat, ← offered, unheard, said, given, same]
    rfl

theorem opens {channel : Nat} (wired : Wired origin history connection)
    (live : connection.isLive = true)
    (conversed : Conversed origin (history ++ [move]) channel connection.generation sessionId)
    (silent : ∀ index, channel ≠ index →
      ((origin.run history).1.step move).2.filterMap (Record.offered? index) = [])
    (activeChat : Option String) :
    Wired origin (history ++ [move]) (connection.onOpen channel sessionId activeChat).1 := by
  refine ⟨(wired.agrees.keeps_onOpen live channel sessionId activeChat).agrees,
    fun _ => wired.token_concat live move, ?_, ?_⟩
  · intro index held
    cases held
    exact ⟨sessionId, rfl, conversed⟩
  · intro index
    by_cases here : channel = index
    · rw [← here]
      exact .inr ⟨_, _, conversed⟩
    · exact wired.told_concat (silent index here)

/-- What is sent over the connection goes into the queue that it holds, under its session
    id. -/
theorem issues (wired : Wired origin history client.connection) {actions : List Action}
    (offers : ∀ index, ((origin.run history).1.step move).2.filterMap (Record.offered? index) =
      (actions.flatMap client.send).filterMap (Order.offered? index)) :
    Wired origin (history ++ [move]) client.connection := by
  have mine : ∀ index, client.connection.outbound = some index →
      ∃ sessionId, client.connection.sessionId = some sessionId ∧
        Conversed origin (history ++ [move]) index client.connection.generation sessionId := by
    intro index held
    obtain ⟨sessionId, under, conversed⟩ := wired.held index held
    have said : ((origin.run history).1.step move).2.filterMap (Record.offered? index) =
        (actions.map fun action => action.scopedTo client.board.activeChat).map
          fun action => .ofAction action (some sessionId) := by
      rw [offers, Client.offered_sendAll wired.agrees, if_pos held, under, List.map_map]
      rfl
    exact ⟨sessionId, under, conversed.goesOn _ said⟩
  refine ⟨wired.agrees, fun live => wired.token_concat live move, mine, ?_⟩
  intro index
  by_cases held : client.connection.outbound = some index
  · obtain ⟨sessionId, -, conversed⟩ := mine index held
    exact .inr ⟨_, _, conversed⟩
  · apply wired.told_concat
    rw [offers, Client.offered_sendAll wired.agrees, if_neg held]

theorem starts {token : String} (wired : Wired origin history connection)
    (free : connection.isLive = false)
    (attempts : Attempts (connection.generation + 1) token (origin.run history).1 move)
    (silent : ∀ index,
      ((origin.run history).1.step move).2.filterMap (Record.offered? index) = []) :
    Wired origin (history ++ [move]) (connection.attempting token) := by
  refine ⟨?_, ?_, ?_, fun index => wired.told_concat (silent index)⟩
  · have keeps := wired.agrees.keeps_connect (some token)
    rw [Connection.connect_of_not_isLive free] at keeps
    exact keeps.agrees
  · intro _
    exact ⟨token, rfl, sometime_concat.mpr (.inr attempts)⟩
  · intro index held
    rw [Connection.attempting, wired.agrees.outbound_eq_none free] at held
    cases held

theorem shuts {next : Connection} (wired : Wired origin history connection)
    (agrees : next.Agrees) (free : next.isLive = false)
    (silent : ∀ index,
      ((origin.run history).1.step move).2.filterMap (Record.offered? index) = []) :
    Wired origin (history ++ [move]) next := by
  refine ⟨agrees, ?_, ?_, fun index => wired.told_concat (silent index)⟩
  · intro live
    rw [free] at live
    cases live
  · intro index held
    rw [agrees.outbound_eq_none free] at held
    cases held

theorem step (wired : Wired origin history (origin.run history).1.client.connection)
    (same : (origin.run history).1.client.connection.settings =
      origin.client.connection.settings)
    (fresh : ∀ generation index, Opens generation index (origin.run history).1 move →
      ∀ other, .link other (.opened index) ∉ origin.noted takes? history) :
    Wired origin (history ++ [move]) ((origin.run history).1.step move).1.client.connection := by
  obtain ⟨input, sessionId, orders, taken, sends, offers⟩ :=
    (turn_step (origin.run history).1 move).sends
  generalize ((origin.run history).1.step move).1.client.connection = connection at sends ⊢
  cases sends with
  | @opens channel live =>
    have opens : Opens _ channel (origin.run history).1 move := taken.resolve_right (by simp)
    apply wired.opens live
    · apply wired.conversed_of_opens live same opens (fresh _ _ opens)
      rw [offers]
      simp [Order.offered?]
    · intro index elsewhere
      rw [offers]
      simp [Order.offered?, elsewhere]
  | issues => exact wired.issues offers
  | @starts input token connects given free =>
    have starts : Starts (origin.run history).1 move := by
      rcases taken with taken | rfl
      · exact ⟨⟨input, taken, connects⟩, by rw [given]; rfl, free⟩
      · cases connects
    exact wired.starts free ⟨starts, rfl, given⟩ offers
  | shuts agrees free => exact wired.shuts agrees free offers

end Wired

theorem wired_run (settings : Settings) (credential : Option String) (moves : List Move) :
    Wired (start settings credential) moves
      ((start settings credential).run moves).1.client.connection := by
  refine history_induction (P := fun history system =>
    Wired (start settings credential) history system.client.connection) ?_ ?_ moves
  · refine ⟨Connection.agrees_start settings, ?_, ?_, fun index => .inl rfl⟩
    · intro live
      cases live
    · intro index held
      cases held
  · intro history move wired
    apply wired.step (settings_run settings credential history)
    intro generation index opens other
    exact not_taken_before (takes?_eq_some_iff.mpr opens)

theorem accounts_run (settings : Settings) (credential : Option String) (index : Nat)
    (moves : List Move) :
    ((start settings credential).run moves).1.world.Accounts index
      ((start settings credential).offered index moves)
      ((start settings credential).accepted index moves) := by
  refine history_induction (P := fun history system =>
    system.world.Accounts index ((start settings credential).offered index history)
      ((start settings credential).accepted index history)) ?_ ?_ moves
  · refine ⟨?_, fun _ => rfl⟩
    intro channel found
    cases found
  · intro history move accounts
    rw [offered, accepted, filterMap_run_concat, filterMap_run_concat]
    apply (turn_step _ move).accounts accounts
    -- whatever was offered to a queue, its opening was taken, and so it exists
    intro new
    rcases (wired_run settings credential history).told index with none | ⟨_, _, conversed⟩
    · exact none
    · have owned := owner_of_taken conversed.opened
      rw [new, World.owners, List.getElem?_map, List.getElem?_eq_none (Nat.le_refl _)] at owned
      cases owned

end wired

/-! ### What is accepted, and when -/

/-- How a frame comes to be queued: in the handshake of a link that opens, or as an action that
    an input issues, placed in the active chat if it names none. -/
inductive Utters (generation index : Nat) (system : System) (move : Move) : Envelope → Prop where
  | registers (opens : Opens generation index system move) (sessionId token : String)
      (capabilities : List String) :
      Utters generation index system move (.registration sessionId token capabilities)
  | asks (opens : Opens generation index system move) (sessionId : String) :
      Utters generation index system move (.ofAction .getHistory (some sessionId))
  | issues {input : Input} {action : Action} (taken : Takes input system move)
      (issued : action ∈ system.client.issued input)
      (chat : action.isUnplaced = true →
        (system.step move).1.client.board.activeChat = system.client.board.activeChat ∧
          (action.scopedTo system.client.board.activeChat).payload.get? "chat_id" =
            some (Action.textOrNull system.client.board.activeChat)) :
      Utters generation index system move
        (.ofAction (action.scopedTo system.client.board.activeChat)
          system.client.connection.sessionId)

/-- What the queue of a link accepts in the course of a run, and when. -/
structure Outgoing (system : System) (moves : List Move) (index generation : Nat) : Prop where
  /-- The link has no other queue. -/
  only : ∀ (other : Nat) (channel : Channel),
    (system.run moves).1.world.channels[other]? = some channel →
      channel.generation = generation → other = index
  /-- The credential for the link is read once. -/
  once : ∀ token other, Sometime (Attempts generation token) system moves →
    Sometime (Attempts generation other) system moves → token = other
  transcript : Transcript system.client.connection.settings.capabilities
    (fun token => Sometime (Attempts generation token) system moves) (system.accepted index moves)
  /-- Each frame is queued once the link opened and before it ended for the loop. -/
  each : ∀ earlier move later envelope, moves = earlier ++ move :: later →
    .queued index envelope ∈ ((system.run earlier).1.step move).2 →
      Sometime (Opens generation index) system (earlier ++ [move]) ∧
        ¬Sometime (Ends generation) system (earlier ++ [move]) ∧
        Utters generation index (system.run earlier).1 move envelope

section queued

variable {settings : Settings} {credential : Option String} {moves : List Move}
  {index generation : Nat}

theorem opens_iff_mem_taken :
    Sometime (Opens generation index) system moves ↔
      .link generation (.opened index) ∈ system.noted takes? moves := by
  rw [mem_noted]
  constructor
  · exact Sometime.mono takes?_eq_some_iff.mpr
  · exact Sometime.mono takes?_eq_some_iff.mp

/-- A link that is current and live has not ended. -/
theorem not_ends_of_isLive
    (live : (system.run moves).1.client.connection.isLive = true)
    (current : (system.run moves).1.client.connection.generation = generation) :
    ¬Sometime (Ends generation) system moves := by
  intro ended
  rcases isOver_run ended with earlier | ⟨-, free⟩
  · omega
  · rw [live] at free
    cases free

/-- Whoever queues a frame utters it over a link that opens by this, or into the queue that the
    connection holds, and the link stays current and live. -/
theorem utters_of_queued {envelope : Envelope} (agrees : system.client.connection.Agrees)
    (queued : .queued index envelope ∈ (system.step move).2) :
    Utters system.client.connection.generation index system move envelope ∧
      (Opens system.client.connection.generation index system move ∨
        system.client.connection.outbound = some index) ∧
      (system.step move).1.client.connection.isLive = true ∧
      (system.step move).1.client.connection.generation =
        system.client.connection.generation := by
  have turn := turn_step system move
  obtain ⟨input, sessionId, orders, taken, sends, offers⟩ := turn.sends
  have said : envelope ∈ orders.filterMap (Order.offered? index) := by
    rw [← offers index]
    exact List.mem_filterMap.mpr ⟨_, queued, if_pos rfl⟩
  generalize (system.step move).1.client.connection = connection at sends ⊢
  cases sends with
  | @opens channel live =>
    have opens : Opens system.client.connection.generation channel system move :=
      taken.resolve_right (by simp)
    by_cases here : channel = index
    · subst here
      refine ⟨?_, .inl opens, rfl, rfl⟩
      simp only [Order.offered?, if_pos, List.filterMap_cons, List.filterMap_nil, List.mem_cons,
        List.not_mem_nil, or_false] at said
      rcases said with rfl | rfl
      · exact .registers opens _ _ _
      · exact .asks opens _
    · simp [Order.offered?, here] at said
  | issues =>
    rw [Client.offered_sendAll agrees] at said
    split at said
    · next held =>
      obtain ⟨action, issued, rfl⟩ := List.mem_map.mp said
      have goesOn : input ≠ .command .shutdown := by
        rintro rfl
        cases issued
      have taken := taken.resolve_right goesOn
      refine ⟨.issues taken issued fun unplaced => ⟨?_, Action.chatId_of_unplaced unplaced _⟩,
        .inr held, agrees.isLive_of_outbound held, rfl⟩
      obtain ⟨sessionId, handled⟩ := turn.of_takes taken goesOn
      rw [handled, client_carryOut]
      exact Client.activeChat_of_unplaced issued unplaced
    · cases said
  | starts connects given free => cases said
  | shuts agrees free => cases said

/-- A frame that is queued is uttered over a link that opened and has not ended. -/
theorem of_queued {earlier : List Move} {move : Move} {envelope : Envelope}
    (queued : .queued index envelope ∈
      (((start settings credential).run earlier).1.step move).2) :
    ∃ generation, Sometime (Opens generation index) (start settings credential)
        (earlier ++ [move]) ∧
      ¬Sometime (Ends generation) (start settings credential) (earlier ++ [move]) ∧
      Utters generation index ((start settings credential).run earlier).1 move envelope := by
  have wired := wired_run settings credential earlier
  obtain ⟨utters, way, live, current⟩ := utters_of_queued wired.agrees queued
  rw [← run_concat] at live current
  refine ⟨_, ?_, not_ends_of_isLive live current, utters⟩
  rcases way with opens | held
  · exact sometime_concat.mpr (.inr opens)
  · obtain ⟨sessionId, -, conversed⟩ := wired.held index held
    exact sometime_concat.mpr (.inl (opens_iff_mem_taken.mpr conversed.opened))

/-- **What a server gets to read on a link.**  The queue of a link that opened accepts first
    the registration, with the credential that was read when the link was started and the
    capabilities of the settings, then the request for the history, and then actions, all
    under one session id.  Every frame is queued after the loop took notice that the link
    opened and before the link ended for it, and an action that does not name its chat is
    sent with the one that is active when it is queued. -/
theorem outgoing_run {channel : Channel}
    (made : ((start settings credential).run moves).1.world.channels[index]? = some channel)
    (roomy : 2 ≤ channel.capacity) :
    Outgoing (start settings credential) moves index channel.generation := by
  have owned : ∀ {other : Nat} {rival : Channel},
      ((start settings credential).run moves).1.world.channels[other]? = some rival →
        ((start settings credential).run moves).1.world.owners[other]? =
          some rival.generation := by
    intro other rival found
    rw [World.owners, List.getElem?_map, found]
    rfl
  have owner : ∀ {generation : Nat},
      .link generation (.opened index) ∈ (start settings credential).noted takes? moves →
        generation = channel.generation := by
    intro generation opened
    exact Option.some.inj ((owner_of_taken opened).symm.trans (owned made))
  refine ⟨?_, fun token other => eq_of_attempts, ?_, ?_⟩
  · intro other rival found same
    have rivalOwns := owned found
    rw [same] at rivalOwns
    exact eq_of_owner rivalOwns (owned made)
  · have accounts := (accounts_run settings credential index moves).born channel made
    rcases (wired_run settings credential moves).told index with none | ⟨_, sessionId, conversed⟩
    · have part := accounts.part
      rw [none, List.sublist_nil] at part
      rw [part]
      exact .silent
    · obtain ⟨token, actions, attempted, same⟩ := conversed.talked
      rw [owner conversed.opened] at attempted
      rw [same] at accounts
      exact transcript_of_talk attempted roomy accounts.part accounts.first
  · intro earlier move later envelope split queued
    obtain ⟨generation, opened, goesOn, utters⟩ := of_queued queued
    have same : generation = channel.generation := by
      apply owner
      rw [split, List.append_cons, noted_append]
      exact List.mem_append_left _ (opens_iff_mem_taken.mp opened)
    rw [← same]
    exact ⟨opened, goesOn, utters⟩

end queued

/-- The first link opens and a caller asks for a new chat: three frames are queued. -/
theorem outgoing_of_first_link :
    let settings : Settings := ⟨"ws://localhost/ui", ["render"], 3, 1, 10, 5⟩
    let moves : List Move :=
      [.submit .connect, .takeCommand, .world (.linkOpens 1 4), .takeEvent "session",
        .submit (.send .newChat), .takeCommand]
    let system := start settings (some "token")
    Outgoing system moves 0 1 ∧
      system.accepted 0 moves = talk ["render"] "session" "token" [.newChat] := by
  intro settings moves system
  have made : (system.run moves).1.world.channels[0]?.map
      (fun channel => (channel.generation, channel.capacity)) = some (1, 4) := by decide +kernel
  obtain ⟨channel, found, is⟩ := Option.map_eq_some_iff.mp made
  have generation : channel.generation = 1 := congrArg Prod.fst is
  have capacity : channel.capacity = 4 := congrArg Prod.snd is
  have roomy : 2 ≤ channel.capacity := by omega
  have outgoing := outgoing_run found roomy
  rw [generation] at outgoing
  exact ⟨outgoing, by rfl⟩

end System
end Liveboard.Session
