/-
  Liveboard/Proofs/Session/Credential.lean
  ========================================
  **The credential leaves the client only in registrations.**

  Two runs are told apart by the text of their credentials nowhere but in the token of the
  registrations that they send (`differs_only_in_registrations`).

  `veiled` takes the text out: of the credential that the connection holds, of the
  registrations that were asked for, queued or refused, and of what the provider would
  answer.  Every handler, order and move does the same to veiled arguments as to the original
  ones, veiled (`handle_veiled`, `performAll_veiled`, `step_veiled`); so two states that are
  equal when veiled stay so.  What the provider would answer matters only to a move that makes
  the loop ask it (`consulted?`).
-/
import Liveboard.Proofs.Session.Queues
import Liveboard.Proofs.Session.Turn

namespace Liveboard

/-- The presence of a text without the text. -/
def veil : Option String → Option String := Option.map fun _ => ""

theorem veil_eq_iff {text other : Option String} :
    veil text = veil other ↔ text.isSome = other.isSome := by
  cases text <;> cases other <;> simp [veil]

namespace Envelope

/-- A registration without its token; an event as it is. -/
def veiled (envelope : Envelope) : Envelope :=
  match envelope.kind with
  | .register => { envelope with token := veil envelope.token }
  | .event => envelope

@[simp] theorem veiled_registration (sessionId token : String) (capabilities : List String) :
    (registration sessionId token capabilities).veiled =
      registration sessionId "" capabilities := rfl

@[simp] theorem veiled_ofAction (action : Action) (sessionId : Option String) :
    (ofAction action sessionId).veiled = ofAction action sessionId := rfl

end Envelope

namespace Session

/-- An order without the token of a registration that it asks to be sent. -/
def Order.veiled : Order → Order
  | .offer channel envelope => .offer channel envelope.veiled
  | order => order

def Record.veiled : Record → Record
  | .queued channel envelope => .queued channel envelope.veiled
  | .refused channel envelope => .refused channel envelope.veiled
  | record => record

/-! ### The connection -/

namespace Connection

/-- A connection without the text of its credential. -/
def veiled (connection : Connection) : Connection :=
  { connection with token := veil connection.token }

variable (connection : Connection)

theorem offer_veiled (envelope : Envelope) :
    connection.veiled.offer envelope.veiled = (connection.offer envelope).map Order.veiled := by
  rw [offer, offer, List.map_map]
  rfl

theorem send_veiled (action : Action) :
    connection.veiled.send action = (connection.send action).map Order.veiled := by
  have offered := connection.offer_veiled (.ofAction action connection.sessionId)
  rw [Envelope.veiled_ofAction] at offered
  have sameOpen : connection.veiled.isOpen = connection.isOpen := rfl
  rw [send, send, sameOpen]
  by_cases isOpen : connection.isOpen = true
  · rw [if_pos isOpen, if_pos isOpen]
    exact offered
  · rw [if_neg isOpen, if_neg isOpen, List.map_nil]

theorem connect_veiled (credential : Option String) :
    connection.veiled.connect (veil credential) =
      (connection.connect credential).map veiled (List.map Order.veiled) := by
  cases credential with
  | none => rfl
  | some token =>
    have sameLive : connection.veiled.isLive = connection.isLive := rfl
    rw [veil, Option.map_some, connect, connect, sameLive]
    by_cases live : connection.isLive = true
    · rw [if_pos live, if_pos live]
      rfl
    · rw [if_neg live, if_neg live]
      rfl

theorem dropLink_veiled :
    connection.veiled.dropLink = connection.dropLink.map veiled (List.map Order.veiled) := by
  rw [dropLink, dropLink, Prod.map_apply, List.map_append, List.map_map, List.map_map]
  rfl

theorem onOpen_veiled (channel : Nat) (sessionId : String) (activeChat : Option String) :
    connection.veiled.onOpen channel sessionId activeChat =
      (connection.onOpen channel sessionId activeChat).map veiled (List.map Order.veiled) := by
  let opened : Connection := { connection with
    phase := .connected, outbound := some channel, sessionId := some sessionId, isOnline := true }
  have noToken : (veil connection.token).getD "" = "" := by
    cases connection.token <;> rfl
  have registered :
      opened.veiled.offer
          (.registration sessionId ((veil connection.token).getD "") connection.settings.capabilities) =
        (opened.offer (.registration sessionId (connection.token.getD "")
          connection.settings.capabilities)).map Order.veiled := by
    rw [noToken, ← opened.offer_veiled, Envelope.veiled_registration]
  have asked := opened.send_veiled .getHistory
  refine Prod.ext rfl ?_
  rw [Prod.map_snd, onOpen, onOpen]
  simp only [List.map_append, List.map_map]
  rw [← registered, ← asked]
  rfl

theorem onClose_veiled :
    connection.veiled.onClose = connection.onClose.map veiled (List.map Order.veiled) := by
  rw [onClose, onClose, dropLink_veiled]
  simp only [Prod.map, List.map_append]
  rfl

theorem disconnect_veiled :
    connection.veiled.disconnect = connection.disconnect.map veiled (List.map Order.veiled) := by
  rw [disconnect, disconnect, dropLink_veiled]
  simp only [Prod.map, List.cons_append, List.map_cons, List.map_append]
  rfl

theorem resume_veiled (generation : Nat) (chatId : String) :
    connection.veiled.resume generation chatId =
      (connection.resume generation chatId).map Order.veiled := by
  have sameGeneration : connection.veiled.generation = connection.generation := rfl
  rw [resume, resume, sameGeneration]
  by_cases current : (generation == connection.generation) = true
  · rw [if_pos current, if_pos current, send_veiled]
  · rw [if_neg current, if_neg current, List.map_nil]

theorem handle_veiled (generation : Nat) (news : LinkNews) (sessionId : String)
    (activeChat : Option String) :
    connection.veiled.handle generation news sessionId activeChat =
      (connection.handle generation news sessionId activeChat).map veiled
        (Prod.map (List.map Order.veiled) id) := by
  have sameGuard : (generation == connection.veiled.generation && connection.veiled.isLive) =
      (generation == connection.generation && connection.isLive) := rfl
  unfold handle
  rw [sameGuard]
  by_cases heard : (generation == connection.generation && connection.isLive) = true
  · rw [if_pos heard, if_pos heard]
    cases news with
    | opened channel =>
      simp only [onOpen_veiled]
      rfl
    | reported event =>
      cases event with
      | frame text => rfl
      | errored reason =>
        simp only [onClose_veiled]
        rfl
      | closed =>
        simp only [onClose_veiled]
        rfl
  · rw [if_neg heard, if_neg heard]
    cases news <;> rfl

end Connection

/-! ### The loop -/

namespace Client

def veiled (client : Client) : Client := { client with connection := client.connection.veiled }

variable (client : Client)

/-- What a handler gives, veiled. -/
def veiledOutcome (outcome : Client × List Order) : Client × List Order :=
  (outcome.1.veiled, outcome.2.map Order.veiled)

theorem send_veiled (action : Action) :
    client.veiled.send action = (client.send action).map Order.veiled :=
  client.connection.send_veiled (action.scopedTo client.board.activeChat)

theorem settlements_veiled (settled : List (Settlement Ticket SavedComponent)) :
    (settlements settled).map Order.veiled = settlements settled := by
  rw [settlements, List.map_map]
  rfl

theorem perform_veiled (effect : Effect) :
    client.veiled.perform effect = veiledOutcome (client.perform effect) := by
  cases effect with
  | send action => exact Prod.ext rfl (client.send_veiled action)
  | resolveSave component => exact Prod.ext rfl (settlements_veiled _).symm
  | rejectSave reason => exact Prod.ext rfl (settlements_veiled _).symm
  | armExpiry topic token => rfl
  | reset => rfl
  | render target =>
    refine Prod.ext rfl ?_
    rw [perform, perform, veiledOutcome, List.map_map]
    rfl

theorem performAll_veiled (effects : List Effect) :
    client.veiled.performAll effects = veiledOutcome (client.performAll effects) := by
  induction effects generalizing client with
  | nil => rfl
  | cons effect effects ih =>
    simp only [performAll, perform_veiled, veiledOutcome, ih, List.map_append]

theorem dispatch_veiled (text : String) :
    client.veiled.dispatch text = veiledOutcome (client.dispatch text) := by
  rw [dispatch, dispatch]
  cases Frame.parse text with
  | error _ => rfl
  | ok frame =>
    let shown : Client := { client with board := (client.board.apply frame).1 }
    have performed := shown.performAll_veiled (client.board.apply frame).2
    change ((shown.veiled.performAll (client.board.apply frame).2).1,
      (shown.veiled.performAll (client.board.apply frame).2).2 ++
        [Order.publish (shown.veiled.performAll (client.board.apply frame).2).1.board]) = _
    rw [performed, veiledOutcome, veiledOutcome, List.map_append]
    rfl

theorem connect_veiled (credential : Option String) :
    client.veiled.connect (veil credential) = veiledOutcome (client.connect credential) := by
  have attempted := client.connection.connect_veiled credential
  rw [connect, connect]
  change (({ client with
      connection := (client.connection.veiled.connect (veil credential)).1 } : Client),
    (client.connection.veiled.connect (veil credential)).2) = _
  rw [attempted]
  rfl

theorem hangUp_veiled (failure : Failure) :
    client.veiled.hangUp failure = veiledOutcome (client.hangUp failure) := by
  have hungUp := client.connection.disconnect_veiled
  refine Prod.ext ?_ ?_
  · change ({ client with
      connection := client.connection.veiled.disconnect.1
      saves := (client.saves.rejectAll (α := SavedComponent) failure).1 } : Client) = _
    rw [hungUp]
    rfl
  · change client.connection.veiled.disconnect.2 ++
      settlements (client.saves.rejectAll failure).2 = _
    rw [hungUp, ← settlements_veiled]
    exact (List.map_append ..).symm

theorem chat_veiled (content : String) (ticket : Ticket) :
    client.veiled.chat content ticket = veiledOutcome (client.chat content ticket) := by
  let recorded : Client := { client with board := client.board.pushUserMessage content }
  have sent := recorded.send_veiled (.chatMessage content none)
  have sameOpen : client.veiled.connection.isOpen = client.connection.isOpen := rfl
  rw [chat, chat, sameOpen]
  by_cases isOpen : client.connection.isOpen = true
  · rw [if_pos isOpen, if_pos isOpen]
    refine Prod.ext rfl ?_
    change recorded.veiled.send (.chatMessage content none) ++ _ = List.map _ (_ ++ _)
    rw [sent, List.map_append]
    rfl
  · rw [if_neg isOpen, if_neg isOpen]
    rfl

theorem save_veiled (action : Action) (ticket : Ticket) :
    client.veiled.save action ticket = veiledOutcome (client.save action ticket) := by
  let waiting : Client := { client with saves := (client.saves.register ticket).1 }
  have sent := waiting.send_veiled action
  have sameOpen : client.veiled.connection.isOpen = client.connection.isOpen := rfl
  rw [save, save, sameOpen]
  by_cases isOpen : client.connection.isOpen = true
  · rw [if_pos isOpen, if_pos isOpen]
    refine Prod.ext rfl ?_
    change _ :: waiting.veiled.send action = List.map _ (_ :: _)
    rw [sent]
    rfl
  · rw [if_neg isOpen, if_neg isOpen]
    rfl

theorem onNews_veiled (generation : Nat) (news : LinkNews) (sessionId : String) :
    client.veiled.onNews generation news sessionId =
      veiledOutcome (client.onNews generation news sessionId) := by
  have heard := client.connection.handle_veiled generation news sessionId
    client.board.activeChat
  have sameConnection : client.veiled.connection = client.connection.veiled := rfl
  have sameBoard : client.veiled.board = client.board := rfl
  rw [onNews, onNews, sameConnection, sameBoard, heard]
  rcases client.connection.handle generation news sessionId client.board.activeChat with
    ⟨connection, orders, frame?⟩
  cases frame? with
  | none => rfl
  | some text =>
    have dispatched := dispatch_veiled { client with connection := connection } text
    change ((dispatch (veiled { client with connection := connection }) text).1,
      orders.map Order.veiled ++
        (dispatch (veiled { client with connection := connection }) text).2) = _
    rw [dispatched, veiledOutcome, veiledOutcome, List.map_append]

/-- The provider's answer may be replaced if the input does not ask for it. -/
theorem handle_veiled (credential answer : Option String) (sessionId : String) (input : Input)
    (asked : input.connects = true → answer = veil credential) :
    client.veiled.handle answer sessionId input =
      veiledOutcome (client.handle credential sessionId input) := by
  cases input with
  | command command =>
    cases command with
    | connect =>
      rw [asked rfl]
      exact client.connect_veiled credential
    | disconnect => exact client.hangUp_veiled .disconnected
    | shutdown => rfl
    | send action => exact Prod.ext rfl (client.send_veiled action)
    | chat content ticket => exact client.chat_veiled content ticket
    | save action ticket => exact client.save_veiled action ticket
  | event event =>
    cases event with
    | link generation news => exact client.onNews_veiled generation news sessionId
    | wake wake =>
      cases wake with
      | reconnect =>
        rw [asked rfl]
        exact client.connect_veiled credential
      | resume generation chatId =>
        exact Prod.ext rfl (client.connection.resume_veiled generation chatId)
      | saveDeadline request => exact Prod.ext rfl (settlements_veiled _).symm
      | errorExpiry topic token =>
        change (if client.board.expires topic token then _ else _) =
          veiledOutcome (if client.board.expires topic token then _ else _)
        by_cases expires : client.board.expires topic token = true
        · rw [if_pos expires, if_pos expires]
          rfl
        · rw [if_neg expires, if_neg expires]
          rfl

end Client

/-! ### The surroundings -/

def Channel.veiled (channel : Channel) : Channel :=
  { channel with unread := channel.unread.map Envelope.veiled }

theorem Channel.accepts_veiled (channel : Channel) : channel.veiled.accepts = channel.accepts := by
  rw [accepts, accepts, veiled, List.length_map]

namespace World

def veiled (world : World) : World := { world with channels := world.channels.map Channel.veiled }

variable (world : World)

theorem accepts_veiled (channel : Nat) : world.veiled.accepts channel = world.accepts channel := by
  rw [accepts, accepts, veiled, List.getElem?_map, Option.map_map]
  exact congrArg (fun verdict => (Option.map verdict _).getD false) (funext Channel.accepts_veiled)

/-- Changing one queue commutes with taking the tokens out of all. -/
theorem modify_veiled (act act' : Channel → Channel)
    (same : ∀ channel, act channel.veiled = (act' channel).veiled) (index : Nat) :
    (world.channels.map Channel.veiled).modify index act =
      (world.channels.modify index act').map Channel.veiled := by
  refine List.ext_getElem? fun position => ?_
  rw [List.getElem?_modify, List.getElem?_map, List.getElem?_map, List.getElem?_modify]
  cases world.channels[position]? with
  | none => rfl
  | some channel =>
    by_cases here : index = position
    · simp [here, same]
    · simp [here]

theorem perform_veiled (order : Order) :
    world.veiled.perform order.veiled =
      ((world.perform order).1.veiled, (world.perform order).2.map Record.veiled) := by
  cases order with
  | offer channel envelope =>
    rw [Order.veiled, perform, perform, accepts_veiled]
    by_cases accepted : world.accepts channel = true
    · rw [if_pos accepted, if_pos accepted]
      refine Prod.ext ?_ rfl
      have changed := world.modify_veiled
        (fun c => { c with unread := c.unread ++ [envelope.veiled] })
        (fun c => { c with unread := c.unread ++ [envelope] })
        (fun c => by rw [Channel.veiled, Channel.veiled, List.map_append]; rfl) channel
      exact congrArg (fun channels => { world with channels := channels }) changed
    · rw [if_neg accepted, if_neg accepted]
      rfl
  | release channel =>
    refine Prod.ext ?_ rfl
    have changed := world.modify_veiled (fun c => { c with isHeld := false })
      (fun c => { c with isHeld := false }) (fun _ => rfl) channel
    exact congrArg (fun channels => { world with channels := channels }) changed
  | _ => rfl

theorem performAll_veiled (orders : List Order) :
    world.veiled.performAll (orders.map Order.veiled) =
      ((world.performAll orders).1.veiled, (world.performAll orders).2.map Record.veiled) := by
  induction orders generalizing world with
  | nil => rfl
  | cons order orders ih =>
    simp only [List.map_cons, performAll, perform_veiled, ih, List.map_append]

theorem deafen_veiled :
    world.veiled.deafen = (world.deafen.1.veiled, world.deafen.2.map Record.veiled) := by
  have sameEvents : world.veiled.events = world.events := rfl
  rw [deafen, deafen, sameEvents]
  generalize made : List.filterMap _ world.events = orders
  -- queues are let go of, and no frame is sent
  have plain : orders.map Order.veiled = orders := by
    refine (List.map_congr_left fun order mem => ?_).trans (List.map_id _)
    rw [← made] at mem
    obtain ⟨event, -, given⟩ := List.mem_filterMap.mp mem
    rcases event with ⟨_, _ | _⟩ | _
    · cases given
      rfl
    · cases given
    · cases given
  have performed :=
    performAll_veiled { world with events := [], isListening := false } orders
  rw [plain] at performed
  exact performed

theorem post_veiled (event : Event) : world.veiled.post event = (world.post event).veiled := by
  have sameListening : world.veiled.isListening = world.isListening := rfl
  rw [post, post, sameListening]
  by_cases listening : world.isListening = true
  · rw [if_pos listening, if_pos listening]
    rfl
  · rw [if_neg listening, if_neg listening]

theorem step_veiled (move : World.Move) : world.veiled.step move = (world.step move).veiled := by
  cases move with
  | wait millis => rfl
  | ring index =>
    have sameAlarms : world.veiled.alarms = world.alarms := rfl
    rw [step, step, sameAlarms]
    cases world.alarms.ring? index with
    | none => rfl
    | some rung => exact post_veiled { world with alarms := rung.2 } (.wake rung.1)
  | linkOpens generation capacity =>
    have sameGuard : (world.veiled.isConnecting generation && world.veiled.isListening) =
        (world.isConnecting generation && world.isListening) := rfl
    rw [step, step, sameGuard]
    by_cases opens : (world.isConnecting generation && world.isListening) = true
    · rw [if_pos opens, if_pos opens]
      have sameLength : world.veiled.channels.length = world.channels.length :=
        List.length_map _
      have sameChannels : world.veiled.channels ++ [Channel.fresh generation capacity] =
          (world.channels ++ [Channel.fresh generation capacity]).map Channel.veiled := by
        rw [List.map_append]
        rfl
      rw [sameLength, sameChannels]
      exact post_veiled
        ({ world with channels := world.channels ++ [Channel.fresh generation capacity] }.setPhase
          generation (.opened world.channels.length)) _
    · rw [if_neg opens, if_neg opens]
  | linkFails generation =>
    have sameGuard : world.veiled.isConnecting generation = world.isConnecting generation := rfl
    rw [step, step, sameGuard]
    by_cases fails : world.isConnecting generation = true
    · rw [if_pos fails, if_pos fails]
      exact post_veiled (world.setPhase generation .ended) _
    · rw [if_neg fails, if_neg fails]
  | linkReports generation event =>
    have sameGuard : world.veiled.isLinkOpen generation = world.isLinkOpen generation := rfl
    rw [step, step, sameGuard]
    by_cases reports : world.isLinkOpen generation = true
    · rw [if_pos reports, if_pos reports]
      by_cases final : event.isFinal = true
      · rw [if_pos final, if_pos final]
        exact post_veiled (world.setPhase generation .ended) _
      · rw [if_neg final, if_neg final]
        exact post_veiled world _
    · rw [if_neg reports, if_neg reports]
  | linkStops generation =>
    have sameGuard : (world.veiled.link? generation).any (·.isCut) =
        (world.link? generation).any (·.isCut) := rfl
    rw [step, step, sameGuard]
    by_cases stops : (world.link? generation).any (·.isCut) = true
    · rw [if_pos stops, if_pos stops]
      rfl
    · rw [if_neg stops, if_neg stops]
  | serverReads channel =>
    have changed := world.modify_veiled (fun c => { c with unread := [] })
      (fun c => { c with unread := [] }) (fun _ => rfl) channel
    exact congrArg (fun channels => { world with channels := channels }) changed
  | serverLeaves channel =>
    have changed := world.modify_veiled (fun c => { c with unread := [], isHeard := false })
      (fun c => { c with unread := [], isHeard := false }) (fun _ => rfl) channel
    exact congrArg (fun channels => { world with channels := channels }) changed

end World

/-! ### Moves and runs -/

namespace System

/-- A session in which no text of a credential is left; the provider would answer `answer`. -/
def veiled (answer : Option String) (system : System) : System :=
  { system with
    client := system.client.veiled, world := system.world.veiled, credential := answer }

/-- The same move, but that the provider's answer becomes `answer` whenever it changes. -/
def Move.veiled (answer : Option String) : Move → Move
  | .setCredential _ => .setCredential answer
  | move => move

/-- What a move leads to, without the credential. -/
def veiledAfter (answer : Option String) (after : System × List Record) : System × List Record :=
  (after.1.veiled answer, after.2.map Record.veiled)

section

variable (answer : Option String) (system : System)

theorem foldl_observe_veiled (records : List Record) :
    (records.map Record.veiled).foldl observe (system.veiled answer) =
      (records.foldl observe system).veiled answer := by
  induction records generalizing system with
  | nil => rfl
  | cons record records ih =>
    have seen : (system.veiled answer).observe record.veiled =
        (system.observe record).veiled answer := by
      cases record <;> rfl
    rw [List.map_cons, List.foldl_cons, List.foldl_cons, seen, ih]

theorem carryOut_veiled (client : Client) (orders : List Order) :
    carryOut (system.veiled answer) client.veiled (orders.map Order.veiled) =
      veiledAfter answer (carryOut system client orders) := by
  have performed := system.world.performAll_veiled orders
  have observed := foldl_observe_veiled answer
    { system with client := client, world := (system.world.performAll orders).1 }
    (system.world.performAll orders).2
  change ((system.world.veiled.performAll (orders.map Order.veiled)).2.foldl observe
      { (system.veiled answer) with
        client := client.veiled
        world := (system.world.veiled.performAll (orders.map Order.veiled)).1 },
    (system.world.veiled.performAll (orders.map Order.veiled)).2) = _
  rw [performed]
  exact Prod.ext observed rfl

theorem stop_veiled : (system.veiled answer).stop = veiledAfter answer system.stop := by
  let halted : System := { system with isRunning := false, commands := [] }
  have hungUp := system.client.hangUp_veiled .clientClosed
  have plain : (system.commands.filterMap abandoned).map Order.veiled =
      system.commands.filterMap abandoned := by
    refine (List.map_congr_left fun order mem => ?_).trans (List.map_id _)
    obtain ⟨command, -, given⟩ := List.mem_filterMap.mp mem
    cases command with
    | save action ticket =>
      cases given
      rfl
    | _ => cases given
  have last : (system.veiled answer).lastTurn = veiledAfter answer system.lastTurn := by
    have carried := halted.carryOut_veiled answer system.client.stop.1 system.lastOrders
    rw [lastOrders, List.map_append, plain] at carried
    change carryOut (halted.veiled answer) (system.client.veiled.hangUp .clientClosed).1
      ((system.client.veiled.hangUp .clientClosed).2 ++ system.commands.filterMap abandoned) = _
    rw [hungUp]
    exact carried
  have lost := system.lastTurn.1.world.deafen_veiled
  rw [stop_eq, stop_eq, last]
  change (({ system.lastTurn.1.veiled answer with
      world := system.lastTurn.1.world.veiled.deafen.1 } : System),
    system.lastTurn.2.map Record.veiled ++ system.lastTurn.1.world.veiled.deafen.2) = _
  rw [lost, ← List.map_append]
  rfl

theorem submit_veiled (ask : Ask) :
    (system.veiled answer).submit ask = (system.submit ask).veiled answer := by
  have sameRunning : (system.veiled answer).isRunning = system.isRunning := rfl
  rw [submit, submit, sameRunning]
  by_cases running : system.isRunning = true
  · rw [if_pos running, if_pos running]
    rfl
  · rw [if_neg running, if_neg running]

theorem runBatch_veiled (index : Nat) :
    (system.veiled answer).runBatch index = (system.runBatch index).veiled answer := by
  have sameBatches : (system.veiled answer).batches = system.batches := rfl
  have sameResults : (system.veiled answer).results = system.results := rfl
  have sameGuards : (system.veiled answer).isOnline = system.isOnline ∧
      (system.veiled answer).isRunning = system.isRunning := ⟨rfl, rfl⟩
  rw [runBatch, runBatch, sameBatches, sameResults, sameGuards.1, sameGuards.2]
  cases system.batches[index]? with
  | none => rfl
  | some batch =>
    simp only
    cases batch.phase with
    | finished result => rfl
    | waiting ticket =>
      simp only
      cases system.results.lookup ticket <;> rfl
    | ready =>
      simp only
      cases batch.next system.isOnline system.isRunning with
      | inl finished => rfl
      | inr request =>
        exact submit_veiled answer
          { system with
            batches := system.batches.set index
              { batch with phase := .waiting system.nextTicket } } (.save request.action)

end

/-- What the provider answers when a move makes the loop ask it. -/
def consulted? (system : System) (move : Move) : Option (Option String) :=
  if (system.input? move).any Input.connects then some system.credential else none

section

variable {answer : Option String} {system : System}

theorem handled_veiled (sessionId : String) (input : Input)
    (asked : input.connects = true → answer = veil system.credential) :
    carryOut ((system.without input).veiled answer)
        (system.client.veiled.handle answer sessionId input).1
        (system.client.veiled.handle answer sessionId input).2 =
      veiledAfter answer (carryOut (system.without input)
        (system.client.handle system.credential sessionId input).1
        (system.client.handle system.credential sessionId input).2) := by
  rw [system.client.handle_veiled system.credential answer sessionId input asked]
  exact carryOut_veiled answer _ _ _

theorem takeCommand_veiled
    (asked : ∀ command ∈ system.input? .takeCommand, command.connects = true →
      answer = veil system.credential) :
    (system.veiled answer).takeCommand = veiledAfter answer system.takeCommand := by
  have sameRunning : (system.veiled answer).isRunning = system.isRunning := rfl
  have sameCommands : (system.veiled answer).commands = system.commands := rfl
  have sameHeld : (system.veiled answer).isHeld = system.isHeld := rfl
  rw [takeCommand, takeCommand, sameRunning, sameCommands, sameHeld]
  by_cases running : system.isRunning = true
  · have taken : ∀ {command left}, system.commands = command :: left →
        system.input? .takeCommand = some (.command command) ∧
          system.without (.command command) = { system with commands := left } := by
      intro command left next
      rw [input?, if_pos running, without, next]
      exact ⟨rfl, rfl⟩
    have goesOn : ¬ (!system.isRunning) = true := by
      rw [running]
      decide
    rw [if_neg goesOn, if_neg goesOn]
    cases next : system.commands with
    | nil =>
      by_cases held : system.isHeld = true
      · simp only [held, if_true]
        rfl
      · simp only [held]
        exact system.stop_veiled answer
    | cons command left =>
      obtain ⟨found, rest⟩ := taken next
      have handled := handled_veiled "" (.command command) (asked _ found)
      rw [rest] at handled
      cases command with
      | shutdown => exact stop_veiled answer { system with commands := left }
      | _ => exact handled
  · have halted : (!system.isRunning) = true := by
      rw [Bool.eq_false_iff.mpr running]
      rfl
    rw [if_pos halted, if_pos halted]
    rfl

theorem takeEvent_veiled {sessionId : String}
    (asked : ∀ event ∈ system.input? (.takeEvent sessionId), event.connects = true →
      answer = veil system.credential) :
    (system.veiled answer).takeEvent sessionId = veiledAfter answer (system.takeEvent sessionId) := by
  have sameRunning : (system.veiled answer).isRunning = system.isRunning := rfl
  have sameEvents : (system.veiled answer).world.events = system.world.events := rfl
  rw [takeEvent, takeEvent, sameRunning, sameEvents]
  by_cases running : system.isRunning = true
  · have goesOn : ¬ (!system.isRunning) = true := by
      rw [running]
      decide
    rw [if_neg goesOn, if_neg goesOn]
    cases next : system.world.events with
    | nil => rfl
    | cons event left =>
      have found : system.input? (.takeEvent sessionId) = some (.event event) := by
        rw [input?, if_pos running, next]
        rfl
      have handled := handled_veiled sessionId (.event event) (asked _ found)
      rw [without, next] at handled
      exact handled
  · have halted : (!system.isRunning) = true := by
      rw [Bool.eq_false_iff.mpr running]
      rfl
    rw [if_pos halted, if_pos halted]
    rfl

/-- A move of the veiled session is the veiled move of the session, if the provider is asked for
    nothing but the presence of a credential. -/
theorem step_veiled {move : Move}
    (asked : ∀ credential ∈ system.consulted? move, answer = veil credential) :
    (system.veiled answer).step (move.veiled answer) = veiledAfter answer (system.step move) := by
  have asked : ∀ input ∈ system.input? move, input.connects = true →
      answer = veil system.credential := by
    intro input taken connects
    refine asked system.credential ?_
    rw [consulted?, taken, Option.any_some, if_pos connects]
    rfl
  cases move with
  | takeCommand => exact takeCommand_veiled asked
  | takeEvent sessionId => exact takeEvent_veiled asked
  | submit ask => exact Prod.ext (system.submit_veiled answer ask) rfl
  | startBatch requests => rfl
  | runBatch index => exact Prod.ext (system.runBatch_veiled answer index) rfl
  | cloneHandle => rfl
  | dropHandle => rfl
  | setCredential credential => rfl
  | world move =>
    refine Prod.ext ?_ rfl
    exact congrArg (fun world => { (system.veiled answer) with world := world })
      (system.world.step_veiled move)

end

/-! ### Two runs -/

/-- What the provider answers over a run, one entry for each time the loop asks. -/
def consulted (system : System) (moves : List Move) : List (Option String) :=
  system.noted consulted? moves

theorem input?_veiled (answer : Option String) (system : System) (move : Move) :
    (system.veiled answer).input? (move.veiled answer) = system.input? move := by
  cases move <;> rfl

theorem isSome_consulted? (system : System) (move : Move) :
    (system.consulted? move).isSome = (system.input? move).any Input.connects := by
  rw [consulted?]
  by_cases asks : (system.input? move).any Input.connects = true
  · rw [if_pos asks, asks]
    rfl
  · rw [if_neg asks, Bool.eq_false_iff.mpr asks]
    rfl

section

variable {system other : System} {move move' : Move} {moves moves' : List Move}

/-- Sessions that are equal but for the credential ask for it by the same moves. -/
theorem isSome_consulted?_eq (same : system.veiled none = other.veiled none)
    (sameMove : move.veiled none = move'.veiled none) :
    (system.consulted? move).isSome = (other.consulted? move').isSome := by
  rw [isSome_consulted?, isSome_consulted?, ← input?_veiled none system, same, sameMove,
    input?_veiled]

/-- They stay equal but for the credential if the provider has one for both or for neither. -/
theorem step_alike (same : system.veiled none = other.veiled none)
    (sameMove : move.veiled none = move'.veiled none)
    (sameAnswer : (system.consulted? move).map Option.isSome =
      (other.consulted? move').map Option.isSome) :
    veiledAfter none (system.step move) = veiledAfter none (other.step move') := by
  let answer := veil ((system.consulted? move).getD none)
  have asked : ∀ credential ∈ system.consulted? move, answer = veil credential := by
    intro credential found
    rw [Option.mem_def] at found
    simp only [answer, found, Option.getD_some]
  have asked' : ∀ credential ∈ other.consulted? move', answer = veil credential := by
    intro credential found
    rw [Option.mem_def.mp found, Option.map_some, Option.map_eq_some_iff] at sameAnswer
    obtain ⟨mine, found, sameSome⟩ := sameAnswer
    rw [asked mine found, veil_eq_iff, sameSome]
  have sameVeiled : system.veiled answer = other.veiled answer :=
    congrArg (fun session => { session with credential := answer }) same
  have sameMove : move.veiled answer = move'.veiled answer := by
    have again : ∀ move : Move, (move.veiled none).veiled answer = move.veiled answer := by
      intro move
      cases move <;> rfl
    rw [← again move, ← again move', sameMove]
  have mine := step_veiled asked
  have theirs := step_veiled asked'
  rw [sameVeiled, sameMove, theirs] at mine
  exact (congrArg (fun after : System × List Record =>
    (({ after.1 with credential := none } : System), after.2)) mine).symm

theorem run_alike (same : system.veiled none = other.veiled none)
    (sameMoves : moves.map (Move.veiled none) = moves'.map (Move.veiled none))
    (sameAnswers : (system.consulted moves).map Option.isSome =
      (other.consulted moves').map Option.isSome) (count : Nat) :
    veiledAfter none (system.run (moves.take count)) =
      veiledAfter none (other.run (moves'.take count)) := by
  induction moves generalizing system other moves' count with
  | nil =>
    rw [List.map_nil, eq_comm, List.map_eq_nil_iff] at sameMoves
    rw [sameMoves, List.take_nil]
    exact Prod.ext same rfl
  | cons move moves ih =>
    cases moves' with
    | nil => cases sameMoves
    | cons move' moves' =>
      obtain ⟨sameMove, sameMoves⟩ := List.cons.inj sameMoves
      have asks := isSome_consulted?_eq same sameMove
      -- the first answers belong to the first moves
      have split : (system.consulted? move).map Option.isSome =
            (other.consulted? move').map Option.isSome ∧
          ((system.step move).1.consulted moves).map Option.isSome =
            ((other.step move').1.consulted moves').map Option.isSome := by
        rw [consulted, consulted, noted, noted] at sameAnswers
        cases mine : system.consulted? move with
        | none =>
          cases theirs : other.consulted? move' with
          | none =>
            rw [mine, theirs] at sameAnswers
            exact ⟨rfl, sameAnswers⟩
          | some credential => rw [mine, theirs] at asks; cases asks
        | some credential =>
          cases theirs : other.consulted? move' with
          | none => rw [mine, theirs] at asks; cases asks
          | some credential' =>
            rw [mine, theirs] at sameAnswers
            obtain ⟨first, later⟩ := List.cons.inj sameAnswers
            exact ⟨congrArg some first, later⟩
      have stepped := step_alike same sameMove split.1
      cases count with
      | zero => exact Prod.ext same rfl
      | succ count =>
        have later := ih (congrArg Prod.fst stepped) sameMoves split.2 count
        rw [List.take_succ_cons, List.take_succ_cons]
        refine Prod.ext (Prod.ext_iff.mp later).1 ?_
        change List.map Record.veiled ((system.step move).2 ++ _) =
          List.map Record.veiled ((other.step move').2 ++ _)
        rw [List.map_append, List.map_append]
        exact congr (congrArg _ (congrArg Prod.snd stepped)) (congrArg Prod.snd later)

end

/-- Two sessions make the same moves, and whenever their loops ask for the credential both
    providers have one or neither has.  Then all along the two are in the same state and have left
    the same on record, but for the texts of the credentials: what the providers have, what the
    connections hold, and the tokens of registrations. -/
theorem differs_only_in_registrations (settings : Settings) {credential other : Option String}
    {moves moves' : List Move}
    (sameMoves : moves.map (Move.veiled none) = moves'.map (Move.veiled none))
    (sameAnswers : ((start settings credential).consulted moves).map Option.isSome =
      ((start settings other).consulted moves').map Option.isSome) (count : Nat) :
    ((start settings credential).run (moves.take count)).1.veiled none =
        ((start settings other).run (moves'.take count)).1.veiled none ∧
      ((start settings credential).run (moves.take count)).2.map Record.veiled =
        ((start settings other).run (moves'.take count)).2.map Record.veiled := by
  have same : (start settings credential).veiled none = (start settings other).veiled none := rfl
  have alike := run_alike same sameMoves sameAnswers count
  exact ⟨congrArg Prod.fst alike, congrArg Prod.snd alike⟩

/-- One provider has a credential from the start and changes it, the other gets one before it is
    asked.  Both clients register, say something, lose the link and register again. -/
theorem differs_only_in_registrations_twice :
    let settings : Settings := ⟨"ws://localhost/ui", ["render"], 3, 1, 10, 5⟩
    let moves (first second : String) : List Move :=
      [.setCredential (some first), .submit .connect, .takeCommand, .world (.linkOpens 1 8),
        .takeEvent "one", .submit (.chat "hello"), .takeCommand, .setCredential (some second),
        .world (.linkReports 1 .closed), .takeEvent "", .world (.wait 3), .world (.ring 0),
        .takeEvent "", .world (.linkOpens 2 8), .takeEvent "two"]
    let mine := (start settings (some "early")).run (moves "alpha" "beta")
    let theirs := (start settings none).run (moves "gamma" "gamma")
    mine.1.veiled none = theirs.1.veiled none ∧
      mine.2.map Record.veiled = theirs.2.map Record.veiled ∧
      (mine.2.filterMap (Record.accepted? 1)).map (·.token) = [some "beta", none] ∧
      (theirs.2.filterMap (Record.accepted? 1)).map (·.token) = [some "gamma", none] := by
  intro settings moves mine theirs
  have sameMoves : (moves "alpha" "beta").map (Move.veiled none) =
      (moves "gamma" "gamma").map (Move.veiled none) := rfl
  have sameAnswers : ((start settings (some "early")).consulted (moves "alpha" "beta")).map
      Option.isSome = ((start settings none).consulted (moves "gamma" "gamma")).map
      Option.isSome := by
    decide +kernel
  have alike := differs_only_in_registrations settings sameMoves sameAnswers 15
  exact ⟨alike.1, alike.2, by decide +kernel, by decide +kernel⟩

end System
end Session
end Liveboard
