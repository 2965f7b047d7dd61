/-
  Liveboard/Proofs/Session/Agreement.lean
  =======================================
  **The fields of a connection agree with each other, and with what is outside of it.**

  Queue, session id, link and what watchers know are written by four operations, and
  whoever uses the connection decides by one or another of them.  `Connection.Agrees` says
  that all of them follow from the phase; every operation keeps it.

  Links and watchers live outside of the connection and hear of it by orders alone.  A rig
  is a connection with these two; `fields_agree_run` says, for every sequence of calls and
  whatever happens around it, that watchers know the truth, that links are numbered
  without a gap, and that no link lives on beside the current one.
-/
import Liveboard.Proofs.Session.Handlers
import Liveboard.Proofs.Session.Surroundings

namespace Liveboard.Session

/-! ### Links that are not cut -/

def Link.uncut? (link : Link) : Option Nat := if link.isCut then none else some link.generation

/-- What an order makes of the generations whose links are not cut. -/
def Order.uncut (generations : List Nat) : Order → List Nat
  | .attempt generation _ => generations ++ [generation]
  | .cut generation => generations.filter fun other => other ≠ generation
  | .endScope => []
  | _ => generations

namespace World

/-- The generations of the links that are not cut. -/
def uncut (world : World) : List Nat := world.links.filterMap Link.uncut?

theorem mem_uncut {world : World} {generation : Nat} :
    generation ∈ world.uncut ↔
      ∃ link ∈ world.links, link.isCut = false ∧ link.generation = generation := by
  simp [uncut, Link.uncut?]

theorem uncut_perform (world : World) (order : Order) :
    (world.perform order).1.uncut = order.uncut world.uncut := by
  cases order with
  | attempt generation url => simp [perform, uncut, Order.uncut, Link.uncut?]
  | cut generation =>
    simp only [perform, uncut, Order.uncut, List.filterMap_map, List.filter_filterMap]
    congr 1
    funext link
    cases cut : link.isCut <;> by_cases same : link.generation = generation <;>
      simp [cutLink, Link.uncut?, cut, same, Option.filter]
  | endScope => simp [perform, uncut, Order.uncut, Link.uncut?, List.filterMap_map]
  | offer channel envelope => simp only [perform]; split <;> rfl
  | _ => rfl

theorem uncut_performAll (world : World) (orders : List Order) :
    (world.performAll orders).1.uncut = orders.foldl Order.uncut world.uncut := by
  induction orders generalizing world with
  | nil => rfl
  | cons order orders ih => rw [fst_performAll_cons, ih, uncut_perform, List.foldl_cons]

@[simp] theorem uncut_post (world : World) (event : Event) :
    (world.post event).uncut = world.uncut := by
  unfold post; split <;> rfl

@[simp] theorem uncut_setPhase (world : World) (generation : Nat) (phase : LinkPhase) :
    (world.setPhase generation phase).uncut = world.uncut := by
  simp only [setPhase, uncut, List.filterMap_map]
  congr 1
  funext link
  simp only [Function.comp_apply, Link.uncut?]
  split <;> rfl

/-- Links are cut by orders alone. -/
theorem uncut_step (world : World) (move : Move) : (world.step move).uncut = world.uncut := by
  cases move with
  | ring index =>
    simp only [step]
    split
    · rw [uncut_post]; rfl
    · rfl
  | linkOpens generation capacity =>
    simp only [step]
    split
    · rw [uncut_post, uncut_setPhase]; rfl
    · rfl
  | linkFails generation => simp only [step]; split <;> simp
  | linkReports generation event =>
    simp only [step]
    split
    · split <;> simp
    · rfl
  | linkStops generation => simp only [step]; split <;> simp
  | _ => rfl

end World

/-! ### What watchers are told -/

def Order.told (isOnline : Bool) : Order → Bool
  | .announce now => now
  | _ => isOnline

def Record.told (isOnline : Bool) : Record → Bool
  | .announced now => now
  | _ => isOnline

theorem World.told_performAll (world : World) (orders : List Order) (isOnline : Bool) :
    (world.performAll orders).2.foldl Record.told isOnline = orders.foldl Order.told isOnline := by
  refine foldl_performAll (fun world order isOnline => ?_) world orders isOnline
  cases order with
  | offer channel envelope => simp only [perform]; split <;> rfl
  | _ => rfl

/-! ### Calls -/

namespace Connection

/-- What can be asked of a connection. -/
inductive Call where
  | connect (credential : Option String)
  | handle (generation : Nat) (news : LinkNews) (sessionId : String) (activeChat : Option String)
  | resume (generation : Nat) (chatId : String)
  | disconnect

def call (connection : Connection) : Call → Connection × List Order
  | .connect credential => connection.connect credential
  | .handle generation news sessionId activeChat =>
    ((connection.handle generation news sessionId activeChat).1,
      (connection.handle generation news sessionId activeChat).2.1)
  | .resume generation chatId => (connection, connection.resume generation chatId)
  | .disconnect => connection.disconnect

/-- All fields say what the phase says. -/
structure Agrees (connection : Connection) : Prop where
  isOnline : connection.isOnline = connection.isOpen
  outbound : connection.outbound.isSome = connection.isOpen
  sessionId : connection.sessionId.isSome = connection.isOpen
  link : connection.link = if connection.isLive then some connection.generation else none

/-- What a call does to the fields of a connection, to its links and to its watchers. -/
structure Keeps (connection after : Connection) (orders : List Order) : Prop where
  agrees : after.Agrees
  links : orders.foldl Order.uncut connection.link.toList = after.link.toList
  told : orders.foldl Order.told connection.isOnline = after.isOnline
  started : after.generation = connection.generation ∧ orders.filterMap Order.attempt? = [] ∨
    after.generation = connection.generation + 1 ∧
      orders.filterMap Order.attempt? = [connection.generation + 1]

variable {connection : Connection}

theorem agrees_start (settings : Settings) : (start settings).Agrees := ⟨rfl, rfl, rfl, rfl⟩

theorem Agrees.outbound_eq_none (agrees : connection.Agrees) (free : connection.isLive = false) :
    connection.outbound = none := by
  have shut := agrees.outbound
  rw [isOpen_eq_false_of_isLive free] at shut
  exact Option.not_isSome_iff_eq_none.mp (by rw [shut]; exact Bool.false_ne_true)

theorem Agrees.isLive_of_outbound (agrees : connection.Agrees) {channel : Nat}
    (held : connection.outbound = some channel) : connection.isLive = true := by
  cases live : connection.isLive with
  | true => rfl
  | false =>
    rw [agrees.outbound_eq_none live] at held
    cases held

/-- Orders to the server and to timers reach neither links nor watchers. -/
theorem Agrees.keeps_self (agrees : connection.Agrees) {orders : List Order}
    (links : ∀ generations, orders.foldl Order.uncut generations = generations)
    (told : ∀ isOnline, orders.foldl Order.told isOnline = isOnline)
    (started : orders.filterMap Order.attempt? = []) : connection.Keeps connection orders :=
  ⟨agrees, links _, told _, .inl ⟨rfl, started⟩⟩

theorem Agrees.keeps_connect (agrees : connection.Agrees) (credential : Option String) :
    connection.Keeps (connection.connect credential).1 (connection.connect credential).2 := by
  have still : connection.Keeps connection [] :=
    agrees.keeps_self (fun _ => rfl) (fun _ => rfl) rfl
  cases credential with
  | none => exact still
  | some token =>
    cases live : connection.isLive with
    | true => rw [connect_of_isLive live]; exact still
    | false =>
      have shut := isOpen_eq_false_of_isLive live
      rw [connect_of_not_isLive live]
      refine ⟨⟨?_, ?_, ?_, rfl⟩, ?_, rfl, .inr ⟨rfl, rfl⟩⟩
      · exact agrees.isOnline.trans shut
      · exact agrees.outbound.trans shut
      · exact agrees.sessionId.trans shut
      · rw [agrees.link, live]
        rfl

theorem orders_onOpen (connection : Connection) (channel : Nat) (sessionId : String)
    (activeChat : Option String) :
    (connection.onOpen channel sessionId activeChat).2 =
      connection.outbound.toList.map .release ++
        .announce true ::
        .offer channel (.registration sessionId (connection.token.getD "")
          connection.settings.capabilities) ::
        .offer channel (.ofAction .getHistory (some sessionId)) ::
        activeChat.toList.map fun chatId =>
          .arm connection.settings.resumeDelay (.resume connection.generation chatId) := by
  simp only [onOpen, List.append_assoc]
  rfl

theorem Agrees.keeps_onOpen (agrees : connection.Agrees) (live : connection.isLive = true)
    (channel : Nat) (sessionId : String) (activeChat : Option String) :
    connection.Keeps (connection.onOpen channel sessionId activeChat).1
      (connection.onOpen channel sessionId activeChat).2 := by
  have link : connection.link = some connection.generation := by rw [agrees.link, if_pos live]
  have agreed : (connection.onOpen channel sessionId activeChat).1.Agrees :=
    ⟨rfl, rfl, rfl, link⟩
  refine ⟨agreed, ?_, ?_, .inl ⟨rfl, ?_⟩⟩
  · rw [orders_onOpen]
    cases connection.outbound <;> cases activeChat <;> rfl
  · rw [orders_onOpen]
    cases connection.outbound <;> cases activeChat <;> rfl
  · rw [orders_onOpen]
    cases connection.outbound <;> cases activeChat <;> rfl

theorem keeps_onClose (connection : Connection) :
    connection.Keeps connection.onClose.1 connection.onClose.2 := by
  refine ⟨⟨rfl, rfl, rfl, rfl⟩, ?_, ?_, .inl ⟨rfl, ?_⟩⟩
  · cases outbound : connection.outbound <;> cases link : connection.link <;>
      simp [onClose, dropLink, Order.uncut, outbound, link]
  · cases outbound : connection.outbound <;> cases link : connection.link <;>
      simp [onClose, dropLink, Order.told, outbound, link]
  · cases outbound : connection.outbound <;> cases link : connection.link <;>
      simp [onClose, dropLink, Order.attempt?, outbound, link]

theorem keeps_disconnect (connection : Connection) :
    connection.Keeps connection.disconnect.1 connection.disconnect.2 := by
  refine ⟨⟨rfl, rfl, rfl, rfl⟩, ?_, ?_, .inl ⟨rfl, ?_⟩⟩
  · cases outbound : connection.outbound <;> cases link : connection.link <;>
      simp [disconnect, dropLink, Order.uncut, outbound, link]
  · cases outbound : connection.outbound <;> cases link : connection.link <;>
      simp [disconnect, dropLink, Order.told, outbound, link]
  · cases outbound : connection.outbound <;> cases link : connection.link <;>
      simp [disconnect, dropLink, Order.attempt?, outbound, link]

theorem Agrees.keeps_handle (agrees : connection.Agrees) (generation : Nat) (news : LinkNews)
    (sessionId : String) (activeChat : Option String) :
    connection.Keeps (connection.handle generation news sessionId activeChat).1
      (connection.handle generation news sessionId activeChat).2.1 := by
  have handled := handled_handle connection generation news sessionId activeChat
  revert handled
  generalize connection.handle generation news sessionId activeChat = result
  intro handled
  cases handled with
  | stale channels late =>
    refine agrees.keeps_self (fun generations => ?_) (fun isOnline => ?_) ?_
    · induction channels with
      | nil => rfl
      | cons channel channels ih => exact ih
    · induction channels with
      | nil => rfl
      | cons channel channels ih => exact ih
    · rw [List.filterMap_map]
      exact List.filterMap_eq_nil_iff.mpr fun channel _ => rfl
  | opened current live => exact agrees.keeps_onOpen live _ _ _
  | frame current live => exact agrees.keeps_self (fun _ => rfl) (fun _ => rfl) rfl
  | closed current live final => exact keeps_onClose connection

theorem Agrees.keeps_resume (agrees : connection.Agrees) (generation : Nat) (chatId : String) :
    connection.Keeps connection (connection.resume generation chatId) := by
  have quiet : connection.resume generation chatId = [] ∨
      ∃ channel envelope, connection.resume generation chatId = [.offer channel envelope] := by
    unfold resume send offer
    cases connection.outbound with
    | none => split <;> simp
    | some channel =>
      split
      · split <;> simp
      · exact .inl rfl
  rcases quiet with quiet | ⟨channel, envelope, quiet⟩
  · rw [quiet]
    exact agrees.keeps_self (fun _ => rfl) (fun _ => rfl) rfl
  · rw [quiet]
    exact agrees.keeps_self (fun _ => rfl) (fun _ => rfl) rfl

theorem Agrees.keeps_call (agrees : connection.Agrees) (call : Call) :
    connection.Keeps (connection.call call).1 (connection.call call).2 := by
  cases call with
  | connect credential => exact agrees.keeps_connect credential
  | handle generation news sessionId activeChat => exact agrees.keeps_handle _ _ _ _
  | resume generation chatId => exact agrees.keeps_resume _ _
  | disconnect => exact keeps_disconnect connection

end Connection

/-! ### Rigs -/

/-- A connection, its surroundings, and what watchers were last told. -/
structure Rig where
  connection : Connection
  world : World
  told : Bool

namespace Rig

inductive Step where
  | call (call : Connection.Call)
  /-- A link, a server or the clock moves. -/
  | world (move : World.Move)

def start (settings : Settings) : Rig := ⟨.start settings, .start, false⟩

def step (rig : Rig) : Step → Rig
  | .call call =>
    let (connection, orders) := rig.connection.call call
    let (world, records) := rig.world.performAll orders
    ⟨connection, world, records.foldl Record.told rig.told⟩
  | .world move => { rig with world := rig.world.step move }

def run (rig : Rig) (steps : List Step) : Rig := steps.foldl step rig

variable {rig : Rig}

/-- The connection agrees with itself, its links and its watchers. -/
structure Agrees (rig : Rig) : Prop where
  connection : rig.connection.Agrees
  told : rig.told = rig.connection.isOnline
  uncut : rig.world.uncut = rig.connection.link.toList
  generations : rig.world.generations = List.range' 1 rig.connection.generation

theorem agrees_start (settings : Settings) : (start settings).Agrees :=
  ⟨Connection.agrees_start settings, rfl, rfl, rfl⟩

theorem step_call (rig : Rig) (call : Connection.Call) :
    rig.step (.call call) =
      ⟨(rig.connection.call call).1, (rig.world.performAll (rig.connection.call call).2).1,
        (rig.world.performAll (rig.connection.call call).2).2.foldl Record.told rig.told⟩ := rfl

theorem Agrees.step (agrees : rig.Agrees) (step : Step) : (rig.step step).Agrees := by
  cases step with
  | call call =>
    have keeps := agrees.connection.keeps_call call
    rw [step_call]
    constructor
    · exact keeps.agrees
    · rw [World.told_performAll, agrees.told, keeps.told]
    · rw [World.uncut_performAll, agrees.uncut, keeps.links]
    · rw [World.generations_performAll, agrees.generations]
      rcases keeps.started with ⟨same, none⟩ | ⟨next, one⟩
      · rw [none, same, List.append_nil]
      · rw [one, next, List.range'_1_concat, Nat.add_comm 1]
  | world move =>
    constructor
    · exact agrees.connection
    · exact agrees.told
    · exact (World.uncut_step _ _).trans agrees.uncut
    · exact (World.stir_step _ move).generations.trans agrees.generations

theorem Agrees.run (agrees : rig.Agrees) (steps : List Step) : (rig.run steps).Agrees := by
  induction steps generalizing rig with
  | nil => exact agrees
  | cons step steps ih => exact ih (agrees.step step)

theorem Agrees.exists_spawned (agrees : rig.Agrees) (step : Step) :
    ∃ spawned ≤ 1,
      (rig.step step).connection.generation = rig.connection.generation + spawned ∧
      (rig.step step).world.links.length = rig.world.links.length + spawned := by
  have count : ∀ {rig : Rig}, rig.Agrees → rig.world.links.length = rig.connection.generation := by
    intro rig agrees
    have numbered := congrArg List.length agrees.generations
    rwa [World.generations, List.length_map, List.length_range'] at numbered
  rw [count (agrees.step step), count agrees]
  cases step with
  | call call =>
    rcases (agrees.connection.keeps_call call).started with ⟨same, -⟩ | ⟨next, -⟩
    · exact ⟨0, Nat.zero_le _, same, same⟩
    · exact ⟨1, Nat.le_refl _, next, next⟩
  | world move => exact ⟨0, Nat.zero_le _, rfl, rfl⟩

/-- **The fields of a connection agree.**  After any calls, with any news and whatever goes
    on around it, watchers were last told that it is online, it has a queue and it has a
    session id, each exactly while it is open; it has a link to cancel exactly while it is
    connecting or open.  Every step starts at most one link and the generation counts them.
    A link that is not cut is the current one, and is so only while connecting or open. -/
theorem fields_agree_run (settings : Settings) (steps : List Step) :
    let rig := (start settings).run steps
    (rig.told = true ↔ rig.connection.phase = .connected) ∧
      (rig.connection.isOnline = true ↔ rig.connection.phase = .connected) ∧
      (rig.connection.outbound.isSome = true ↔ rig.connection.phase = .connected) ∧
      (rig.connection.sessionId.isSome = true ↔ rig.connection.phase = .connected) ∧
      (rig.connection.link.isSome = true ↔
        rig.connection.phase = .connecting ∨ rig.connection.phase = .connected) ∧
      rig.world.generations = List.range' 1 rig.connection.generation ∧
      (∀ step, ∃ spawned ≤ 1,
        (rig.step step).connection.generation = rig.connection.generation + spawned ∧
        (rig.step step).world.links.length = rig.world.links.length + spawned) ∧
      (∀ link ∈ rig.world.links, link.isCut = false →
        link.generation = rig.connection.generation ∧
          (rig.connection.phase = .connecting ∨ rig.connection.phase = .connected)) ∧
      rig.world.uncut.length ≤ 1 := by
  have agrees := (agrees_start settings).run steps
  revert agrees
  generalize (start settings).run steps = rig
  intro agrees
  have fields := agrees.connection
  have link : ∀ generation, generation ∈ rig.world.uncut →
      rig.connection.isLive = true ∧ generation = rig.connection.generation := by
    intro generation uncut
    rw [agrees.uncut, Option.mem_toList, fields.link] at uncut
    split at uncut
    · next live => exact ⟨live, (Option.some.inj uncut).symm⟩
    · cases uncut
  refine ⟨?_, ?_, ?_, ?_, ?_, agrees.generations, agrees.exists_spawned, ?_, ?_⟩
  · rw [agrees.told, fields.isOnline, Connection.isOpen_iff]
  · rw [fields.isOnline, Connection.isOpen_iff]
  · rw [fields.outbound, Connection.isOpen_iff]
  · rw [fields.sessionId, Connection.isOpen_iff]
  · rw [fields.link, ← Connection.isLive_iff]
    split
    · next live => exact iff_of_true rfl live
    · next free => exact iff_of_false Bool.false_ne_true free
  · intro started present whole
    obtain ⟨live, same⟩ := link _ (World.mem_uncut.mpr ⟨started, present, whole, rfl⟩)
    exact ⟨same, Connection.isLive_iff.mp live⟩
  · rw [agrees.uncut]
    cases rig.connection.link <;> simp

end Rig
end Liveboard.Session
