/-
  Liveboard/Proofs/Session/Tickets.lean
  =====================================
  **What an input does to the saves that wait.**

  A save that reaches an open connection is registered; one that does not is refused on
  the spot.  Any other input may release some of the saves that wait, each to its caller
  and once, and leaves the others as they are.
-/
import Liveboard.Proofs.Session.Handlers
import Liveboard.Proofs.Session.Settling

namespace Liveboard.Session

def Order.settled? : Order → Option Ticket
  | .settle ticket _ => some ticket
  | _ => none

/-- The caller that waits for the outcome of a command. -/
def Command.saver? : Command → Option Ticket
  | .save _ ticket => some ticket
  | _ => none

theorem Order.settled?_of_isOutward {order : Order} (h : order.isOutward = true) :
    order.settled? = none := by
  cases order <;> first | rfl | cases h

def Input.saver? : Input → Option Ticket
  | .command asked => asked.saver?
  | .event _ => none

/-! ### Releasing -/

namespace Confirmations

variable {ρ α : Type} {slot next last : Confirmations ρ} {replies later : List ρ}

/-- Some of the open requests are settled, each once; the others stay as they are. -/
structure Releases (slot next : Confirmations ρ) (replies : List ρ) : Prop where
  numbered : next.Numbered
  nextId : next.nextId = slot.nextId
  timeout : next.timeout = slot.timeout
  parts : ∃ gone, slot.unsettled.Perm (gone ++ next.unsettled) ∧ gone.map (·.2) = replies

theorem Releases.rfl (numbered : slot.Numbered) : Releases slot slot [] :=
  ⟨numbered, .refl _, .refl _, [], .refl _, .refl _⟩

theorem Releases.trans (first : Releases slot next replies) (second : Releases next last later) :
    Releases slot last (replies ++ later) := by
  obtain ⟨gone, parts, same⟩ := first.parts
  obtain ⟨goneLater, partsLater, sameLater⟩ := second.parts
  refine ⟨second.numbered, second.nextId.trans first.nextId,
    second.timeout.trans first.timeout, gone ++ goneLater, ?_, ?_⟩
  · rw [List.append_assoc]
    exact parts.trans (partsLater.append_left gone)
  · rw [List.map_append, same, sameLater]

theorem Settles.releases {picks : Nat → Bool} {result : Except Failure α}
    {after : Confirmations ρ × List (Settlement ρ α)} (settles : Settles slot picks result after)
    (numbered : slot.Numbered) : Releases slot after.1 (after.2.map (·.reply)) := by
  refine ⟨settles.numbered numbered, settles.nextId, settles.timeout, _, settles.parts, ?_⟩
  rw [settles.settled, List.map_map]
  rfl

theorem Releases.mem_of_mem (releases : Releases slot next replies) {entry : Nat × ρ}
    (h : entry ∈ next.unsettled) : entry ∈ slot.unsettled := by
  obtain ⟨gone, parts, -⟩ := releases.parts
  exact parts.mem_iff.mpr (List.mem_append_right gone h)

theorem Releases.settled_or_mem (releases : Releases slot next replies) {entry : Nat × ρ}
    (h : entry ∈ slot.unsettled) : entry.2 ∈ replies ∨ entry ∈ next.unsettled := by
  obtain ⟨gone, parts, rfl⟩ := releases.parts
  rcases List.mem_append.mp (parts.mem_iff.mp h) with h | h
  · exact .inl (List.mem_map_of_mem h)
  · exact .inr h

theorem Releases.perm (releases : Releases slot next replies) :
    (slot.unsettled.map (·.2)).Perm (replies ++ next.unsettled.map (·.2)) := by
  obtain ⟨gone, parts, rfl⟩ := releases.parts
  rw [← List.map_append]
  exact parts.map _

end Confirmations

/-! ### The saves after an input -/

/-- What becomes of the saves that wait when an input is handled. -/
inductive Client.Saves (client : Client) : Input → Confirmations Ticket → List Ticket → Prop where
  | registers {action : Action} {ticket : Ticket} (isOpen : client.connection.isOpen = true) :
      Saves client (.command (.save action ticket)) (client.saves.register ticket).1 []
  | refuses {action : Action} {ticket : Ticket} (closed : client.connection.isOpen = false) :
      Saves client (.command (.save action ticket)) client.saves [ticket]
  | releases {input : Input} {saves : Confirmations Ticket} {settled : List Ticket}
      (other : input.saver? = none) (releases : client.saves.Releases saves settled) :
      Saves client input saves settled

namespace Client

variable {client : Client}

theorem Saves.numbered {input : Input} {later : Confirmations Ticket} {settled : List Ticket}
    (saves : Saves client input later settled) (numbered : client.saves.Numbered) :
    later.Numbered := by
  cases saves with
  | registers isOpen => exact numbered.register _
  | refuses closed => exact numbered
  | releases other releases => exact releases.numbered

/-- Every caller that waits, the one that just asked included, is answered or waits on. -/
theorem Saves.perm {input : Input} {later : Confirmations Ticket} {settled : List Ticket}
    (saves : Saves client input later settled) :
    (client.saves.unsettled.map (·.2) ++ input.saver?.toList).Perm
      (settled ++ later.unsettled.map (·.2)) := by
  cases saves with
  | registers isOpen => exact List.perm_append_singleton _ _
  | refuses closed => exact List.perm_append_singleton _ _
  | releases other releases =>
    rw [other, Option.toList_none, List.append_nil]
    exact releases.perm

/-- Where nothing is registered, requests are only released. -/
theorem Saves.releases_of {input : Input} {later : Confirmations Ticket} {settled : List Ticket}
    (saves : Saves client input later settled) (numbered : client.saves.Numbered)
    (none : ∀ action ticket, input = .command (.save action ticket) →
      client.connection.isOpen = false) :
    ∃ replies, client.saves.Releases later replies ∧ ∀ ticket ∈ replies, ticket ∈ settled := by
  cases saves with
  | registers isOpen =>
    rw [none _ _ rfl] at isOpen
    cases isOpen
  | refuses closed => exact ⟨[], .rfl numbered, by simp⟩
  | releases other releases => exact ⟨settled, releases, fun _ h => h⟩

/-- What the client and its orders have done to the saves that waited. -/
def Releases (client : Client) (after : Client × List Order) : Prop :=
  client.saves.Releases after.1.saves (after.2.filterMap Order.settled?)

theorem filterMap_settlements (settled : List (Settlement Ticket SavedComponent)) :
    (settlements settled).filterMap Order.settled? = settled.map (·.reply) := by
  rw [settlements, List.filterMap_map, ← List.filterMap_eq_map]
  rfl

/-- Orders that settle nothing leave the saves as they are. -/
theorem releases_of_silent {after : Client × List Order} (numbered : client.saves.Numbered)
    (same : after.1.saves = client.saves) (silent : ∀ order ∈ after.2, order.settled? = none) :
    client.Releases after := by
  rw [Releases, List.filterMap_eq_nil_iff.mpr silent, same]
  exact .rfl numbered

theorem releases_of_isOutward {after : Client × List Order} (numbered : client.saves.Numbered)
    (same : after.1.saves = client.saves) (outward : ∀ order ∈ after.2, order.isOutward = true) :
    client.Releases after :=
  releases_of_silent numbered same fun order h => Order.settled?_of_isOutward (outward order h)

theorem releases_of_settles {picks : Nat → Bool} {result : Except Failure SavedComponent}
    {after : Confirmations Ticket × List (Settlement Ticket SavedComponent)}
    (numbered : client.saves.Numbered)
    (settles : Confirmations.Settles client.saves picks result after) :
    client.Releases ({ client with saves := after.1 }, settlements after.2) := by
  rw [Releases, filterMap_settlements]
  exact settles.releases numbered

theorem Releases.trans {next last : Client} {orders later : List Order}
    (first : client.Releases (next, orders)) (second : next.Releases (last, later)) :
    client.Releases (last, orders ++ later) := by
  rw [Releases, List.filterMap_append]
  exact Confirmations.Releases.trans first second

theorem releases_perform (numbered : client.saves.Numbered) (effect : Effect) :
    client.Releases (client.perform effect) := by
  cases effect with
  | send action =>
    exact releases_of_isOutward numbered rfl fun _ h => Connection.isOutward_of_mem_send h
  | resolveSave component =>
    exact releases_of_settles numbered (Confirmations.settles_settle numbered (.ok component))
  | rejectSave reason =>
    exact releases_of_settles numbered
      (Confirmations.settles_settle numbered (.error (.rejected reason)))
  | armExpiry topic token =>
    exact releases_of_silent numbered rfl (by simp [perform, Order.settled?])
  | reset => exact releases_of_silent numbered rfl (by simp [perform, Order.settled?])
  | render target => exact releases_of_silent numbered rfl (by simp [perform, Order.settled?])

theorem releases_performAll (numbered : client.saves.Numbered) (effects : List Effect) :
    client.Releases (client.performAll effects) := by
  induction effects generalizing client with
  | nil => exact .rfl numbered
  | cons effect effects ih =>
    have first := releases_perform numbered effect
    exact first.trans (ih first.numbered)

theorem releases_dispatch (numbered : client.saves.Numbered) (text : String) :
    client.Releases (client.dispatch text) := by
  unfold dispatch
  split
  · exact .rfl numbered
  · next frame parsed =>
    -- the effects are carried out by a client that has the new board, and the same saves
    have effects : Releases { client with board := (client.board.apply frame).1 }
        (performAll { client with board := (client.board.apply frame).1 }
          (client.board.apply frame).2) := by
      apply releases_performAll
      exact numbered
    exact effects.trans (releases_of_silent effects.numbered rfl (by simp [Order.settled?]))

theorem releases_connect (numbered : client.saves.Numbered) (credential : Option String) :
    client.Releases (client.connect credential) := by
  refine releases_of_silent numbered rfl fun order h => ?_
  rw [(Connection.of_mem_connect h).2.2]
  rfl

theorem releases_hangUp (numbered : client.saves.Numbered) (failure : Failure) :
    client.Releases (client.hangUp failure) := by
  have silent : client.Releases
      ({ client with connection := client.connection.disconnect.1 },
        client.connection.disconnect.2) := by
    refine releases_of_silent numbered rfl fun order h => ?_
    rcases Connection.of_mem_disconnect h with rfl | outward
    · rfl
    · exact Order.settled?_of_isOutward outward
  exact silent.trans
    (releases_of_settles numbered (Confirmations.settles_rejectAll client.saves failure))

theorem releases_chat (numbered : client.saves.Numbered) (content : String) (ticket : Ticket) :
    client.Releases (client.chat content ticket) := by
  unfold chat
  split
  · refine releases_of_silent numbered rfl fun order h => ?_
    rcases List.mem_append.mp h with h | h
    · exact Order.settled?_of_isOutward (Connection.isOutward_of_mem_send h)
    · rcases List.mem_cons.mp h with rfl | h
      · rfl
      · rw [List.mem_singleton.mp h]; rfl
  · exact releases_of_silent numbered rfl (by simp [Order.settled?])

/-- A save is registered while the connection is open, and refused otherwise. -/
theorem saves_save (client : Client) (action : Action) (ticket : Ticket) :
    client.Saves (.command (.save action ticket)) (client.save action ticket).1.saves
      ((client.save action ticket).2.filterMap Order.settled?) := by
  unfold save
  split
  · next isOpen =>
    have silent : (client.send action).filterMap Order.settled? = [] :=
      List.filterMap_eq_nil_iff.mpr fun _ h =>
        Order.settled?_of_isOutward (Connection.isOutward_of_mem_send h)
    rw [List.filterMap_cons_none rfl, silent]
    exact .registers isOpen
  · next closed => exact .refuses (Bool.eq_false_iff.mpr closed)

theorem releases_onNews (numbered : client.saves.Numbered) (generation : Nat) (news : LinkNews)
    (sessionId : String) : client.Releases (client.onNews generation news sessionId) := by
  have handled := Connection.handled_handle client.connection generation news sessionId
    client.board.activeChat
  unfold onNews
  revert handled
  generalize client.connection.handle generation news sessionId client.board.activeChat = result
  intro handled
  cases handled with
  | stale channels late =>
    exact releases_of_silent numbered rfl (by simp [Order.settled?])
  | opened current live =>
    refine releases_of_silent numbered rfl fun order h => ?_
    rcases Connection.of_mem_onOpen h with outward | ⟨chatId, -, rfl⟩
    · exact Order.settled?_of_isOutward outward
    · rfl
  | frame current live => exact releases_dispatch numbered _
  | closed current live final =>
    refine releases_of_silent numbered rfl fun order h => ?_
    rcases Connection.of_mem_onClose h with outward | rfl
    · exact Order.settled?_of_isOutward outward
    · rfl

theorem releases_onWake (numbered : client.saves.Numbered) (credential : Option String)
    (wake : Wake) : client.Releases (client.onWake credential wake) := by
  cases wake with
  | reconnect => exact releases_connect numbered credential
  | resume generation chatId =>
    exact releases_of_isOutward numbered rfl fun _ h => Connection.isOutward_of_mem_resume h
  | saveDeadline request =>
    exact releases_of_settles numbered (Confirmations.settles_expire numbered request)
  | errorExpiry topic token =>
    simp only [onWake]
    split
    · exact releases_of_silent numbered rfl (by simp [Order.settled?])
    · exact .rfl numbered

/-- Every input does one of the three. -/
theorem saves_handle (numbered : client.saves.Numbered) (credential : Option String)
    (sessionId : String) (input : Input) :
    client.Saves input (client.handle credential sessionId input).1.saves
      ((client.handle credential sessionId input).2.filterMap Order.settled?) := by
  cases input with
  | command command =>
    cases command with
    | connect => exact .releases rfl (releases_connect numbered credential)
    | disconnect => exact .releases rfl (releases_hangUp numbered .disconnected)
    | shutdown => exact .releases rfl (.rfl numbered)
    | send action =>
      exact .releases rfl
        (releases_of_isOutward numbered rfl fun _ h => Connection.isOutward_of_mem_send h)
    | chat content ticket => exact .releases rfl (releases_chat numbered content ticket)
    | save action ticket => exact client.saves_save action ticket
  | event event =>
    rcases event with ⟨generation, news⟩ | wake
    · exact .releases rfl (releases_onNews numbered generation news sessionId)
    · exact .releases rfl (releases_onWake numbered credential wake)

end Client

end Liveboard.Session
