/-
  Liveboard/Proofs/Session/OpenSaves.lean
  =======================================
  **No save is left hanging, and none is answered twice.**

  A ticket stands for the caller of a save.  It is in the queue of commands, then with an
  open request, and then on record as settled: a turn moves tickets along and neither
  loses nor copies one.  An open request has its deadline armed or posted, so that the
  loop comes back to it; a disconnect and the end of the loop leave no request open.
-/
import Liveboard.Proofs.Session.Scope
import Liveboard.Proofs.Session.Tickets

namespace Liveboard.Session

def Record.settled? : Record → Option Ticket
  | .settled ticket _ => some ticket
  | _ => none

theorem World.settled_perform (world : World) (order : Order) :
    (world.perform order).2.filterMap Record.settled? = order.settled?.toList := by
  cases order with
  | offer channel envelope => simp only [perform]; split <;> rfl
  | _ => rfl

/-- A save request that was registered: its number, its caller, and when it was. -/
structure Registration where
  request : Nat
  ticket : Ticket
  time : Nat

def Registration.entry (registration : Registration) : Nat × Ticket :=
  (registration.request, registration.ticket)

namespace System

variable {system : System} {move : Move} {after : System × List Record} {records : List Record}

def registers? (system : System) : Input → Option Registration
  | .command (.save _ ticket) =>
    if system.client.connection.isOpen then
      some ⟨system.client.saves.nextId, ticket, system.world.now⟩
    else none
  | _ => none

def registration? (system : System) (move : Move) : Option Registration :=
  (system.input? move).bind system.registers?

/-- The saves that are registered in the course of a run, in order. -/
def registrations (system : System) : List Move → List Registration
  | [] => []
  | move :: moves => (system.registration? move).toList ++ registrations (system.step move).1 moves

/-! ### Tickets -/

/-- The callers that wait for the outcome of a save. -/
def savers (system : System) : List Ticket :=
  system.client.saves.unsettled.map (·.2) ++ system.commands.filterMap Command.saver?

theorem filterMap_saver?_of_takes {input : Input} (taken : Takes input system move) :
    system.commands.filterMap Command.saver? =
      input.saver?.toList ++ (system.without input).commands.filterMap Command.saver? := by
  cases input with
  | command command =>
    obtain ⟨-, -, next⟩ := of_input?_command taken
    rw [next, List.filterMap_cons]
    simp only [Input.saver?, without]
    cases command.saver? <;> rfl
  | event event => rfl

theorem settled_carryOut (system : System) (client : Client) (orders : List Order) :
    (carryOut system client orders).2.filterMap Record.settled? =
      orders.filterMap Order.settled? := by
  rw [records_carryOut, World.filterMap_performAll World.settled_perform]

/-- The commands that are left when the loop ends fail their saves. -/
theorem settled_stop (system : System) :
    system.stop.2.filterMap Record.settled? =
      system.client.stop.2.filterMap Order.settled? ++
        system.commands.filterMap Command.saver? := by
  rw [records_stop, List.filterMap_append, World.filterMap_performAll World.settled_perform,
    World.filterMap_deafen World.settled_perform (fun _ => rfl), List.append_nil, lastOrders,
    List.filterMap_append, List.filterMap_filterMap]
  congr 2
  funext command
  cases command <;> rfl

theorem savers_stop (system : System) : system.stop.1.savers = [] := by
  rw [savers, client_stop, commands_stop]
  rfl

theorem Turn.numbered (turn : Turn system move after)
    (numbered : system.client.saves.Numbered) : after.1.client.saves.Numbered := by
  cases turn with
  | @handled move input sessionId taken goesOn =>
    rw [client_carryOut]
    exact (Client.saves_handle numbered system.credential sessionId input).numbered numbered
  | ending running next =>
    rw [client_stop]
    exact (Client.releases_hangUp numbered .clientClosed).numbered
  | _ => exact numbered

/-- A turn moves tickets along; a submission may issue one more. -/
theorem Turn.savers_perm (turn : Turn system move after)
    (numbered : system.client.saves.Numbered) :
    ∃ fresh : Option Ticket,
      (system.savers ++ fresh.toList).Perm
        (after.2.filterMap Record.settled? ++ after.1.savers) ∧
      (∀ ticket ∈ fresh, ticket = system.nextTicket ∧ ticket < after.1.nextTicket) ∧
      system.nextTicket ≤ after.1.nextTicket ∧
      fresh = (system.submitted? after.1).bind Command.saver? := by
  have still : system.savers ++ (none : Option Ticket).toList = system.savers := List.append_nil _
  have nothing : ∀ {next : System}, next.commands.length ≤ system.commands.length →
      none = (system.submitted? next).bind Command.saver? := by
    intro next fewer
    rw [submitted?_eq_none fewer]
    rfl
  cases turn with
  | @handled move input sessionId taken goesOn =>
    refine ⟨none, ?_, by simp, by simp, nothing ?_⟩
    · rw [still, savers, savers, settled_carryOut, client_carryOut, commands_carryOut,
        filterMap_saver?_of_takes taken]
      have saves := Client.saves_handle numbered system.credential sessionId input
      rw [← List.append_assoc, ← List.append_assoc]
      exact saves.perm.append_right _
    · rw [commands_carryOut]
      exact length_commands_without_le system input
  | @ending left running next =>
    refine ⟨none, ?_, by simp, by simp, nothing (by rw [commands_stop]; exact Nat.zero_le _)⟩
    rw [still, savers_stop, settled_stop, List.append_nil, savers]
    have hangUp := (Client.releases_hangUp numbered .clientClosed).perm
    -- hanging up settles every open request, so that only the queue is left to fail
    have nobody : (system.client.hangUp .clientClosed).1.saves.unsettled = [] := rfl
    rw [nobody, List.map_nil, List.append_nil] at hangUp
    have queue : system.commands.filterMap Command.saver? = left.filterMap Command.saver? := by
      rcases next with next | ⟨next, rfl⟩
      · rw [next]; rfl
      · rw [next]
    rw [queue]
    exact hangUp.append_right _
  | surroundings move =>
    exact ⟨none, by rw [still]; exact .refl _, by simp, Nat.le_refl _, nothing (Nat.le_refl _)⟩
  | submission idle ask batches running =>
    refine ⟨(ask.command system.nextTicket).saver?, ?_, ?_, Nat.le_succ _, ?_⟩
    · rw [savers, savers, List.filterMap_append, List.append_assoc]
      refine .of_eq (congrArg _ (congrArg _ ?_))
      cases ask <;> rfl
    · intro ticket issued
      cases ask with
      | save action => cases issued; exact ⟨rfl, Nat.lt_succ_self _⟩
      | _ => cases issued
    · rw [submitted?_eq_some rfl]
      rfl
  | idle =>
    exact ⟨none, by rw [still]; exact .refl _, by simp, Nat.le_refl _, nothing (Nat.le_refl _)⟩

/-- No ticket is with two requests, or settled twice, or both. -/
structure TicketsOnce (records : List Record) (system : System) : Prop where
  numbered : system.client.saves.Numbered
  once : (records.filterMap Record.settled? ++ system.savers).Nodup
  issued : ∀ ticket ∈ records.filterMap Record.settled? ++ system.savers,
    ticket < system.nextTicket

theorem Turn.ticketsOnce (turn : Turn system move after) (kept : TicketsOnce records system) :
    TicketsOnce (records ++ after.2) after.1 := by
  obtain ⟨fresh, parts, news, grows, -⟩ := turn.savers_perm kept.numbered
  have moved : ((records.filterMap Record.settled? ++ system.savers) ++ fresh.toList).Perm
      ((records ++ after.2).filterMap Record.settled? ++ after.1.savers) := by
    rw [List.filterMap_append, List.append_assoc, List.append_assoc]
    exact parts.append_left _
  refine ⟨turn.numbered kept.numbered, moved.nodup_iff.mp ?_, ?_⟩
  · cases fresh with
    | none => rw [Option.toList_none, List.append_nil]; exact kept.once
    | some ticket =>
      obtain ⟨rfl, -⟩ := news ticket rfl
      have unused : system.nextTicket ∉ records.filterMap Record.settled? ++ system.savers :=
        fun used => Nat.lt_irrefl _ (kept.issued _ used)
      exact (List.perm_append_singleton _ _).nodup_iff.mpr (List.nodup_cons.mpr ⟨unused, kept.once⟩)
  · intro ticket h
    rcases List.mem_append.mp (moved.mem_iff.mpr h) with before | now
    · exact Nat.lt_of_lt_of_le (kept.issued ticket before) grows
    · exact (news ticket (Option.mem_toList.mp now)).2

/-! ### Registered saves -/

/-- What a turn does that registers a save. -/
structure Registers (system : System) (registration : Registration) (next : System) : Prop where
  isRunning : next.isRunning = true
  saves : next.client.saves = (system.client.saves.register registration.ticket).1
  request : registration.request = system.client.saves.nextId
  queued : registration.ticket ∈ system.commands.filterMap Command.saver?
  armed : ⟨registration.time + system.client.saves.timeout,
    .saveDeadline registration.request, true⟩ ∈ next.world.alarms.armed

theorem registers_handled {action : Action} {ticket : Ticket}
    (taken : Takes (.command (.save action ticket)) system move)
    (isOpen : system.client.connection.isOpen = true) (sessionId : String) :
    Registers system ⟨system.client.saves.nextId, ticket, system.world.now⟩
      (carryOut (system.without (.command (.save action ticket)))
        (system.client.handle system.credential sessionId (.command (.save action ticket))).1
        (system.client.handle system.credential sessionId (.command (.save action ticket))).2).1 := by
  have handled : system.client.handle system.credential sessionId (.command (.save action ticket)) =
      ({ system.client with saves := (system.client.saves.register ticket).1 },
        .arm system.client.saves.timeout (.saveDeadline system.client.saves.nextId) ::
          system.client.send action) := by
    simp only [Client.handle, Client.onCommand, Client.save, if_pos isOpen]
    rfl
  obtain ⟨-, running, next⟩ := of_input?_command taken
  constructor
  · rw [isRunning_carryOut, isRunning_without, running]
  · rw [client_carryOut, handled]
  · rfl
  · rw [next]
    exact List.mem_cons_self
  · have scope : .endScope ∉
        (system.client.handle system.credential sessionId (.command (.save action ticket))).2 :=
      not_mem_handle_of_not_disconnect (by simp)
    have ordered : .arm system.client.saves.timeout (.saveDeadline system.client.saves.nextId) ∈
        (system.client.handle system.credential sessionId (.command (.save action ticket))).2 := by
      rw [handled]
      exact List.mem_cons_self
    rw [world_carryOut]
    apply World.mem_armed_performAll_of_alarm scope ordered
    rw [now_without]
    rfl

/-- A turn registers a save, or does no more to the saves than release some. -/
theorem Turn.saves (turn : Turn system move after) (numbered : system.client.saves.Numbered) :
    (∃ registration, system.registration? move = some registration ∧
      Registers system registration after.1) ∨
    (system.registration? move = none ∧
      ∃ settled, system.client.saves.Releases after.1.client.saves settled ∧
        ∀ ticket ∈ settled, ticket ∈ after.2.filterMap Record.settled?) := by
  have still : ∃ settled, system.client.saves.Releases system.client.saves settled ∧
      ∀ ticket ∈ settled, ticket ∈ after.2.filterMap Record.settled? :=
    ⟨[], .rfl numbered, by simp⟩
  cases turn with
  | @handled move input sessionId taken goesOn =>
    by_cases saving : ∃ action ticket, input = .command (.save action ticket) ∧
        system.client.connection.isOpen = true
    · obtain ⟨action, ticket, rfl, isOpen⟩ := saving
      refine .inl ⟨_, ?_, registers_handled taken isOpen sessionId⟩
      rw [registration?, taken, Option.bind_some, registers?, if_pos isOpen]
    · have closed : ∀ action ticket, input = .command (.save action ticket) →
          system.client.connection.isOpen = false := by
        intro action ticket same
        refine Bool.eq_false_iff.mpr fun isOpen => saving ⟨action, ticket, same, isOpen⟩
      right
      constructor
      · rw [registration?, taken, Option.bind_some]
        unfold registers?
        split
        · exact if_neg (Bool.eq_false_iff.mp (closed _ _ rfl))
        · rfl
      · rw [client_carryOut, settled_carryOut]
        exact (Client.saves_handle numbered system.credential sessionId input).releases_of
          numbered closed
  | @ending left running next =>
    right
    constructor
    · rcases next with next | ⟨next, -⟩ <;> simp [registration?, input?, running, next, registers?]
    · rw [client_stop]
      refine ⟨_, Client.releases_hangUp numbered .clientClosed, ?_⟩
      intro ticket h
      rw [settled_stop]
      exact List.mem_append_left _ h
  | surroundings move => exact .inr ⟨rfl, still⟩
  | submission nothing => exact .inr ⟨by rw [registration?, nothing]; rfl, still⟩
  | idle nothing => exact .inr ⟨by rw [registration?, nothing]; rfl, still⟩

theorem Turn.unsettled_of_halted (turn : Turn system move after)
    (kept : system.isRunning = false → system.client.saves.unsettled = [])
    (halted : after.1.isRunning = false) : after.1.client.saves.unsettled = [] := by
  cases turn with
  | @handled move input sessionId taken goesOn =>
    rw [isRunning_carryOut, isRunning_without] at halted
    cases move with
    | takeCommand | takeEvent => simp [input?, halted] at taken
    | _ => cases taken
  | ending running next => rw [client_stop]; rfl
  | _ => exact kept halted

theorem Turn.unsettled_of_disconnect (turn : Turn system move after)
    (taken : Takes (.command .disconnect) system move) :
    after.1.client.saves.unsettled = [] := by
  obtain ⟨sessionId, rfl⟩ := turn.of_takes taken (by simp)
  rw [client_carryOut]
  rfl

/-- Once its deadline was handled a request is not open. -/
theorem Turn.ne_of_deadline {request : Nat} (turn : Turn system move after)
    (numbered : system.client.saves.Numbered)
    (taken : Takes (.event (.wake (.saveDeadline request))) system move) {entry : Nat × Ticket}
    (h : entry ∈ after.1.client.saves.unsettled) : entry.1 ≠ request := by
  obtain ⟨sessionId, rfl⟩ := turn.of_takes taken (by simp)
  rw [client_carryOut] at h
  have settles := Confirmations.settles_expire (α := SavedComponent) numbered request
  have still : entry ∈ system.client.saves.unsettled.filter fun entry => !(entry.1 == request) :=
    settles.unsettled ▸ h
  simpa using (List.mem_filter.mp still).2

/-! ### The account of a run -/

/-- The deadline of a registered save is armed, or its event waits to be taken. -/
def IsDue (settings : Settings) (system : System) (registration : Registration) : Prop :=
  ⟨registration.time + settings.saveTimeout, .saveDeadline registration.request, true⟩ ∈
      system.world.alarms.armed ∨
    .wake (.saveDeadline registration.request) ∈ system.world.events

/-- Every registered save is settled on record, or open and watched over. -/
structure Accounted (settings : Settings) (log : List Registration) (records : List Record)
    (system : System) : Prop where
  tickets : TicketsOnce records system
  timeout : system.client.saves.timeout = settings.saveTimeout
  isListening : system.isRunning = true → system.world.isListening = true
  halted : system.isRunning = false → system.client.saves.unsettled = []
  numbers : log.map (·.request) = List.range' 1 log.length
  nextId : system.client.saves.nextId = log.length + 1
  distinct : (log.map (·.ticket)).Nodup
  registered : ∀ entry ∈ system.client.saves.unsettled,
    ∃ registration ∈ log, registration.entry = entry
  settled : ∀ registration ∈ log, registration.ticket ∈ records.filterMap Record.settled? ∨
    registration.entry ∈ system.client.saves.unsettled
  due : ∀ registration ∈ log, registration.entry ∈ system.client.saves.unsettled →
    IsDue settings system registration

variable {settings : Settings} {log : List Registration} {registration : Registration}

theorem accounted_start (settings : Settings) (credential : Option String) :
    Accounted settings [] [] (start settings credential) := by
  refine ⟨⟨Confirmations.numbered_empty _, List.nodup_nil, ?_⟩, rfl, fun _ => rfl, fun _ => rfl,
    rfl, rfl, List.nodup_nil, ?_, ?_, ?_⟩ <;> intro _ h <;> cases h

namespace Accounted

/-- A save is settled on record or open, and not both. -/
theorem not_settled_of_mem (kept : Accounted settings log records system)
    (h : registration.entry ∈ system.client.saves.unsettled) :
    registration.ticket ∉ records.filterMap Record.settled? := by
  intro settled
  have open' : registration.ticket ∈ system.savers :=
    List.mem_append_left _ (List.mem_map_of_mem h)
  exact (List.nodup_append.mp kept.tickets.once).2.2 _ settled _ open' rfl

theorem ne_of_queued (kept : Accounted settings log records system) {ticket : Ticket}
    (queued : ticket ∈ system.commands.filterMap Command.saver?) (h : registration ∈ log) :
    registration.ticket ≠ ticket := by
  have apart := kept.tickets.once
  rw [savers, ← List.append_assoc] at apart
  refine (List.nodup_append.mp apart).2.2 _ ?_ _ queued
  rcases kept.settled registration h with settled | waits
  · exact List.mem_append_left _ settled
  · exact List.mem_append_right _ (List.mem_map_of_mem waits)

theorem isDue (kept : Accounted settings log records system) (turn : Turn system move after)
    (due : IsDue settings system registration)
    (still : registration.entry ∈ after.1.client.saves.unsettled) :
    IsDue settings after.1 registration := by
  -- the end of the loop and a disconnect lose alarms, but they leave no request open
  have goesOn : after.1.isRunning = true := by
    refine eq_true_of_ne_false fun halted => ?_
    rw [turn.unsettled_of_halted kept.halted halted] at still
    cases still
  have keeps : ¬Takes (.command .disconnect) system move := by
    intro taken
    rw [turn.unsettled_of_disconnect taken] at still
    cases still
  rcases due with armed | posted
  · exact turn.armed_or_posted (kept.isListening (turn.isRunning_of goesOn)) goesOn keeps armed
  · rcases turn.posted_or_takes goesOn posted with posted | taken
    · exact .inr posted
    · exact absurd rfl (turn.ne_of_deadline kept.tickets.numbered taken still)

theorem register (kept : Accounted settings log records system) (turn : Turn system move after)
    (registers : Registers system registration after.1) :
    Accounted settings (log ++ [registration]) (records ++ after.2) after.1 := by
  have front : after.1.client.saves.unsettled =
      registration.entry :: system.client.saves.unsettled := by
    rw [registers.saves, Confirmations.unsettled_register, ← registers.request]
    rfl
  have number : registration.request = log.length + 1 := registers.request.trans kept.nextId
  constructor
  · exact turn.ticketsOnce kept.tickets
  · rw [registers.saves]
    exact kept.timeout
  · exact turn.isListening_of kept.isListening
  · exact turn.unsettled_of_halted kept.halted
  · rw [List.map_append, kept.numbers, List.length_append, List.length_singleton,
      List.range'_1_concat, Nat.add_comm 1, ← number]
    rfl
  · rw [registers.saves, List.length_append]
    exact congrArg (· + 1) kept.nextId
  · rw [List.map_append]
    refine (List.perm_append_singleton _ _).nodup_iff.mpr (List.nodup_cons.mpr ⟨?_, kept.distinct⟩)
    intro again
    obtain ⟨earlier, h, same⟩ := List.mem_map.mp again
    exact kept.ne_of_queued registers.queued h same
  · intro entry h
    rw [front] at h
    rcases List.mem_cons.mp h with rfl | h
    · exact ⟨registration, List.mem_append_right _ List.mem_cons_self, rfl⟩
    · obtain ⟨earlier, logged, rfl⟩ := kept.registered entry h
      exact ⟨earlier, List.mem_append_left _ logged, rfl⟩
  · intro other logged
    rw [front, List.filterMap_append]
    rcases List.mem_append.mp logged with logged | h
    · rcases kept.settled other logged with settled | waits
      · exact .inl (List.mem_append_left _ settled)
      · exact .inr (List.mem_cons_of_mem _ waits)
    · rw [List.mem_singleton.mp h]
      exact .inr List.mem_cons_self
  · intro other logged still
    rcases List.mem_append.mp logged with logged | h
    -- an earlier registration is not the new entry: the ticket was in the queue until now
    · have before := still
      rw [front] at before
      rcases List.mem_cons.mp before with same | waits
      · exact absurd (Prod.ext_iff.mp same).2 (kept.ne_of_queued registers.queued logged)
      · exact kept.isDue turn (kept.due other logged waits) still
    · rw [List.mem_singleton.mp h]
      refine .inl ?_
      rw [← kept.timeout]
      exact registers.armed

theorem release (kept : Accounted settings log records system) (turn : Turn system move after)
    {settled : List Ticket}
    (releases : system.client.saves.Releases after.1.client.saves settled)
    (recorded : ∀ ticket ∈ settled, ticket ∈ after.2.filterMap Record.settled?) :
    Accounted settings log (records ++ after.2) after.1 := by
  constructor
  · exact turn.ticketsOnce kept.tickets
  · rw [releases.timeout]
    exact kept.timeout
  · exact turn.isListening_of kept.isListening
  · exact turn.unsettled_of_halted kept.halted
  · exact kept.numbers
  · rw [releases.nextId]
    exact kept.nextId
  · exact kept.distinct
  · intro entry h
    exact kept.registered entry (releases.mem_of_mem h)
  · intro registration logged
    rw [List.filterMap_append]
    rcases kept.settled registration logged with before | waits
    · exact .inl (List.mem_append_left _ before)
    · rcases releases.settled_or_mem waits with now | still
      · exact .inl (List.mem_append_right _ (recorded _ now))
      · exact .inr still
  · intro registration logged still
    exact kept.isDue turn (kept.due registration logged (releases.mem_of_mem still)) still

theorem turn (kept : Accounted settings log records system) (turn : Turn system move after) :
    Accounted settings (log ++ (system.registration? move).toList) (records ++ after.2)
      after.1 := by
  rcases turn.saves kept.tickets.numbered with ⟨registration, same, registers⟩ |
    ⟨none, settled, releases, recorded⟩
  · rw [same]
    exact kept.register turn registers
  · rw [none, Option.toList_none, List.append_nil]
    exact kept.release turn releases recorded

theorem run (kept : Accounted settings log records system) (moves : List Move) :
    Accounted settings (log ++ system.registrations moves) (records ++ (system.run moves).2)
      (system.run moves).1 := by
  induction moves generalizing system log records with
  | nil =>
    rw [registrations, List.append_nil, System.run, List.append_nil]
    exact kept
  | cons move moves ih =>
    have later := ih (kept.turn (turn_step system move))
    rw [List.append_assoc, List.append_assoc] at later
    exact later

end Accounted

/-- **No save is left hanging, and none is answered twice.**  Whatever happens, in any
    order, no caller is answered twice.  A registered save is unanswered exactly as long
    as its request is open, and no other request is; its deadline is then armed for the
    time of registration plus the timeout, or was posted and not yet taken.  Once the loop
    has ended, and after every disconnect, all registered saves are answered. -/
theorem saves_settled_or_due (settings : Settings) (credential : Option String)
    (moves : List Move) :
    let system := ((start settings credential).run moves).1
    let settled := ((start settings credential).run moves).2.filterMap Record.settled?
    let log := (start settings credential).registrations moves
    settled.Nodup ∧ (log.map (·.ticket)).Nodup ∧
      log.map (·.request) = List.range' 1 log.length ∧
      (∀ registration ∈ log, registration.ticket ∉ settled ↔
        registration.entry ∈ system.client.saves.unsettled) ∧
      (∀ entry ∈ system.client.saves.unsettled, ∃ registration ∈ log, registration.entry = entry) ∧
      (∀ registration ∈ log, registration.ticket ∉ settled → IsDue settings system registration) ∧
      (system.isRunning = false → ∀ registration ∈ log, registration.ticket ∈ settled) ∧
      ∀ move, Takes (.command .disconnect) system move → ∀ registration ∈ log,
        registration.ticket ∈ settled ++ (system.step move).2.filterMap Record.settled? := by
  have kept := (accounted_start settings credential).run moves
  rw [List.nil_append, List.nil_append] at kept
  revert kept
  generalize ((start settings credential).run moves).1 = system,
    ((start settings credential).run moves).2 = records,
    (start settings credential).registrations moves = log
  intro kept
  have open_iff : ∀ registration ∈ log,
      registration.ticket ∉ records.filterMap Record.settled? ↔
        registration.entry ∈ system.client.saves.unsettled :=
    fun registration logged =>
      ⟨(kept.settled registration logged).resolve_left, kept.not_settled_of_mem⟩
  refine ⟨(List.nodup_append.mp kept.tickets.once).1, kept.distinct, kept.numbers, open_iff,
    kept.registered, ?_, ?_, ?_⟩
  · intro registration logged unanswered
    exact kept.due registration logged ((open_iff registration logged).mp unanswered)
  · intro halted registration logged
    have none := kept.halted halted
    rcases kept.settled registration logged with settled | waits
    · exact settled
    · rw [none] at waits
      cases waits
  · intro move taken registration logged
    have turn := turn_step system move
    have later := kept.turn turn
    rcases later.settled registration (List.mem_append_left _ logged) with settled | waits
    · rw [List.filterMap_append] at settled
      exact settled
    · rw [turn.unsettled_of_disconnect taken] at waits
      cases waits

end System
end Liveboard.Session
