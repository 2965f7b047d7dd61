/-
  Liveboard/Proofs/Session/Surroundings.lean
  ==========================================
  **What orders and moves do to the clock, the links and the event queue.**

  Carrying out orders posts nothing and stops no clock: events come from moves alone.
  An alarm that is armed stays so until its scope ends or it rings, and when it rings
  its event is posted behind all others.
-/
import Liveboard.Session.World

namespace Liveboard.Session

/-- The alarm that an order arms at a time. -/
def Order.alarm? (now : Nat) : Order → Option Alarm
  | .arm after wake => some ⟨now + after, wake, true⟩
  | .armDetached after wake => some ⟨now + after, wake, false⟩
  | _ => none

theorem Order.le_due_of_alarm? {now : Nat} {order : Order} {alarm : Alarm}
    (armed : order.alarm? now = some alarm) : now ≤ alarm.due := by
  cases order with
  | arm after wake | armDetached after wake =>
    cases armed
    exact Nat.le_add_right now after
  | _ => cases armed

/-- The generation that an order starts a link for. -/
def Order.attempt? : Order → Option Nat
  | .attempt generation _ => some generation
  | _ => none

def Record.attempt? : Record → Option Nat
  | .attempted generation _ => some generation
  | _ => none

namespace World

/-! ### Orders -/

theorem fst_performAll_cons (world : World) (order : Order) (orders : List Order) :
    (world.performAll (order :: orders)).1 = ((world.perform order).1.performAll orders).1 := rfl

@[simp] theorem events_perform (world : World) (order : Order) :
    (world.perform order).1.events = world.events := by
  cases order with
  | offer channel envelope => simp only [perform]; split <;> rfl
  | _ => rfl

@[simp] theorem isListening_perform (world : World) (order : Order) :
    (world.perform order).1.isListening = world.isListening := by
  cases order with
  | offer channel envelope => simp only [perform]; split <;> rfl
  | _ => rfl

@[simp] theorem now_perform (world : World) (order : Order) :
    (world.perform order).1.now = world.now := by
  cases order with
  | offer channel envelope => simp only [perform]; split <;> rfl
  | _ => rfl

/-- What no order changes, no sequence of orders does. -/
theorem performAll_eq {β : Type} {part : World → β}
    (kept : ∀ (world : World) (order : Order), part (world.perform order).1 = part world)
    (world : World) (orders : List Order) : part (world.performAll orders).1 = part world := by
  induction orders generalizing world with
  | nil => rfl
  | cons order orders ih => rw [fst_performAll_cons, ih, kept]

@[simp] theorem events_performAll (world : World) (orders : List Order) :
    (world.performAll orders).1.events = world.events :=
  performAll_eq events_perform world orders

@[simp] theorem isListening_performAll (world : World) (orders : List Order) :
    (world.performAll orders).1.isListening = world.isListening :=
  performAll_eq isListening_perform world orders

@[simp] theorem now_performAll (world : World) (orders : List Order) :
    (world.performAll orders).1.now = world.now :=
  performAll_eq now_perform world orders

/-- An order ends the scope, arms an alarm, or leaves the alarms alone. -/
theorem mem_armed_perform {world : World} {order : Order} {alarm : Alarm} :
    alarm ∈ (world.perform order).1.alarms.armed ↔
      (alarm ∈ world.alarms.armed ∧ (order = .endScope → alarm.isScoped = false)) ∨
        order.alarm? world.now = some alarm := by
  cases order with
  | endScope => simp [perform, Order.alarm?]
  | arm after wake => simp [perform, Order.alarm?, now, eq_comm (a := alarm)]
  | armDetached after wake => simp [perform, Order.alarm?, now, eq_comm (a := alarm)]
  | offer channel envelope => simp only [perform]; split <;> simp [Order.alarm?]
  | _ => simp [perform, Order.alarm?]

theorem of_mem_armed_performAll {world : World} {orders : List Order} {alarm : Alarm}
    (h : alarm ∈ (world.performAll orders).1.alarms.armed) :
    alarm ∈ world.alarms.armed ∨ ∃ order ∈ orders, order.alarm? world.now = some alarm := by
  induction orders generalizing world with
  | nil => exact .inl h
  | cons order orders ih =>
    rw [fst_performAll_cons] at h
    rcases ih h with before | ⟨later, hlater, armed⟩
    · rcases mem_armed_perform.mp before with ⟨before, -⟩ | armed
      · exact .inl before
      · exact .inr ⟨order, List.mem_cons_self, armed⟩
    · rw [now_perform] at armed
      exact .inr ⟨later, List.mem_cons_of_mem _ hlater, armed⟩

theorem mem_armed_performAll_of_mem {world : World} {orders : List Order} {alarm : Alarm}
    (goesOn : .endScope ∉ orders) (h : alarm ∈ world.alarms.armed) :
    alarm ∈ (world.performAll orders).1.alarms.armed := by
  induction orders generalizing world with
  | nil => exact h
  | cons order orders ih =>
    rw [List.mem_cons, not_or] at goesOn
    rw [fst_performAll_cons]
    apply ih goesOn.2
    exact mem_armed_perform.mpr (.inl ⟨h, fun ends => absurd ends.symm goesOn.1⟩)

/-- No order takes back an alarm that is detached. -/
theorem mem_armed_performAll_of_detached {world : World} {alarm : Alarm}
    (detached : alarm.isScoped = false) (h : alarm ∈ world.alarms.armed) (orders : List Order) :
    alarm ∈ (world.performAll orders).1.alarms.armed := by
  induction orders generalizing world with
  | nil => exact h
  | cons order orders ih =>
    rw [fst_performAll_cons]
    apply ih
    exact mem_armed_perform.mpr (.inl ⟨h, fun _ => detached⟩)

theorem mem_armed_performAll_of_alarm {world : World} {orders : List Order} {alarm : Alarm}
    {order : Order} (goesOn : .endScope ∉ orders) (ordered : order ∈ orders)
    (h : order.alarm? world.now = some alarm) :
    alarm ∈ (world.performAll orders).1.alarms.armed := by
  induction orders generalizing world with
  | nil => cases ordered
  | cons first orders ih =>
    rw [List.mem_cons, not_or] at goesOn
    rw [fst_performAll_cons]
    rcases List.mem_cons.mp ordered with rfl | ordered
    · exact mem_armed_performAll_of_mem goesOn.2 (mem_armed_perform.mpr (.inr h))
    · exact ih goesOn.2 ordered (by rw [now_perform]; exact h)

/-- The generations of all links ever started, oldest first. -/
def generations (world : World) : List Nat := world.links.map (·.generation)

theorem generations_perform (world : World) (order : Order) :
    (world.perform order).1.generations = world.generations ++ order.attempt?.toList := by
  cases order with
  | attempt generation url => simp [perform, generations, Order.attempt?]
  | cut generation =>
    simp only [perform, generations, Order.attempt?, Option.toList_none, List.append_nil,
      List.map_map]
    apply List.map_congr_left
    intro link _
    simp only [Function.comp_apply, cutLink]
    split <;> rfl
  | endScope => simp [perform, generations, Order.attempt?]
  | offer channel envelope =>
    simp only [perform]
    split <;> simp [generations, Order.attempt?]
  | _ => simp [perform, generations, Order.attempt?]

theorem generations_performAll (world : World) (orders : List Order) :
    (world.performAll orders).1.generations =
      world.generations ++ orders.filterMap Order.attempt? := by
  induction orders generalizing world with
  | nil => simp [performAll]
  | cons order orders ih =>
    rw [fst_performAll_cons, ih, generations_perform]
    cases h : order.attempt? <;> simp [h]

/-- If each order leaves on record what is asked of it, then so do all of them. -/
theorem filterMap_performAll {β : Type} {seen : Record → Option β} {asked : Order → Option β}
    (agree : ∀ (world : World) (order : Order),
      (world.perform order).2.filterMap seen = (asked order).toList)
    (world : World) (orders : List Order) :
    (world.performAll orders).2.filterMap seen = orders.filterMap asked := by
  induction orders generalizing world with
  | nil => rfl
  | cons order orders ih =>
    simp only [performAll, List.filterMap_append]
    rw [ih, agree]
    cases h : asked order <;> simp [h]

/-- As `filterMap_performAll`, for what is kept up to date with the records. -/
theorem foldl_performAll {σ : Type} {seen : σ → Record → σ} {asked : σ → Order → σ}
    (agree : ∀ (world : World) (order : Order) (state : σ),
      (world.perform order).2.foldl seen state = asked state order)
    (world : World) (orders : List Order) (state : σ) :
    (world.performAll orders).2.foldl seen state = orders.foldl asked state := by
  induction orders generalizing world state with
  | nil => rfl
  | cons order orders ih =>
    simp only [performAll, List.foldl_append, List.foldl_cons]
    rw [ih, agree]

theorem attempts_perform (world : World) (order : Order) :
    (world.perform order).2.filterMap Record.attempt? = order.attempt?.toList := by
  cases order with
  | offer channel envelope => simp only [perform]; split <;> rfl
  | _ => rfl

/-- When the listener goes away, queues are let go of and nothing else is done. -/
theorem exists_deafen (world : World) :
    ∃ orders, (∀ order ∈ orders, ∃ channel, order = .release channel) ∧
      world.deafen = performAll { world with events := [], isListening := false } orders := by
  refine ⟨_, ?_, rfl⟩
  intro order h
  obtain ⟨event, -, given⟩ := List.mem_filterMap.mp h
  rcases event with ⟨_, channel | _⟩ | _
  · exact ⟨channel, (Option.some.inj given).symm⟩
  · cases given
  · cases given

@[simp] theorem events_deafen (world : World) : world.deafen.1.events = [] := by
  obtain ⟨orders, -, h⟩ := exists_deafen world
  rw [h, events_performAll]

@[simp] theorem isListening_deafen (world : World) : world.deafen.1.isListening = false := by
  obtain ⟨orders, -, h⟩ := exists_deafen world
  rw [h, isListening_performAll]

@[simp] theorem now_deafen (world : World) : world.deafen.1.now = world.now := by
  obtain ⟨orders, -, h⟩ := exists_deafen world
  rw [h, now_performAll]
  rfl

@[simp] theorem generations_deafen (world : World) :
    world.deafen.1.generations = world.generations := by
  obtain ⟨orders, released, h⟩ := exists_deafen world
  have none : orders.filterMap Order.attempt? = [] := by
    refine List.filterMap_eq_nil_iff.mpr fun order ordered => ?_
    obtain ⟨channel, rfl⟩ := released order ordered
    rfl
  rw [h, generations_performAll, none, List.append_nil]
  rfl

theorem of_mem_armed_deafen {world : World} {alarm : Alarm}
    (h : alarm ∈ world.deafen.1.alarms.armed) : alarm ∈ world.alarms.armed := by
  obtain ⟨orders, released, same⟩ := exists_deafen world
  rw [same] at h
  rcases of_mem_armed_performAll h with before | ⟨order, ordered, armed⟩
  · exact before
  · obtain ⟨channel, rfl⟩ := released order ordered
    cases armed

theorem mem_armed_deafen {world : World} {alarm : Alarm} (h : alarm ∈ world.alarms.armed) :
    alarm ∈ world.deafen.1.alarms.armed := by
  obtain ⟨orders, released, same⟩ := exists_deafen world
  rw [same]
  refine mem_armed_performAll_of_mem ?_ h
  intro ends
  obtain ⟨channel, isRelease⟩ := released _ ends
  cases isRelease

theorem filterMap_deafen {β : Type} {seen : Record → Option β} {asked : Order → Option β}
    (agree : ∀ (world : World) (order : Order),
      (world.perform order).2.filterMap seen = (asked order).toList)
    (silent : ∀ channel, asked (.release channel) = none) (world : World) :
    world.deafen.2.filterMap seen = [] := by
  obtain ⟨orders, released, h⟩ := exists_deafen world
  rw [h, filterMap_performAll agree, List.filterMap_eq_nil_iff]
  intro order ordered
  obtain ⟨channel, rfl⟩ := released order ordered
  exact silent channel

theorem foldl_deafen {σ : Type} {seen : σ → Record → σ} {asked : σ → Order → σ}
    (agree : ∀ (world : World) (order : Order) (state : σ),
      (world.perform order).2.foldl seen state = asked state order)
    (silent : ∀ state channel, asked state (.release channel) = state) (world : World)
    (state : σ) : world.deafen.2.foldl seen state = state := by
  obtain ⟨orders, released, h⟩ := exists_deafen world
  rw [h, foldl_performAll agree]
  clear h
  induction orders with
  | nil => rfl
  | cons order orders ih =>
    obtain ⟨channel, rfl⟩ := released order List.mem_cons_self
    rw [List.foldl_cons, silent]
    exact ih fun order ordered => released order (List.mem_cons_of_mem _ ordered)

/-! ### Moves -/

@[simp] theorem alarms_post (world : World) (event : Event) :
    (world.post event).alarms = world.alarms := by
  unfold post; split <;> rfl

@[simp] theorem isListening_post (world : World) (event : Event) :
    (world.post event).isListening = world.isListening := by
  unfold post; split <;> rfl

@[simp] theorem generations_post (world : World) (event : Event) :
    (world.post event).generations = world.generations := by
  unfold post; split <;> rfl

theorem mem_events_post {world : World} {posted event : Event} :
    event ∈ (world.post posted).events ↔
      event ∈ world.events ∨ (world.isListening = true ∧ event = posted) := by
  unfold post
  split
  · next listening => simp [listening]
  · next deaf => simp [deaf]

theorem generations_setPhase (world : World) (generation : Nat) (phase : LinkPhase) :
    (world.setPhase generation phase).generations = world.generations := by
  simp only [setPhase, generations, List.map_map]
  apply List.map_congr_left
  intro link _
  simp only [Function.comp_apply]
  split <;> rfl

/-- Inbox, listener, alarms and started links are what they were. -/
structure Undisturbed (world after : World) : Prop where
  events : after.events = world.events
  armed : after.alarms.armed = world.alarms.armed
  isListening : after.isListening = world.isListening
  generations : after.generations = world.generations

theorem undisturbed_setPhase (world : World) (generation : Nat) (phase : LinkPhase) :
    Undisturbed world (world.setPhase generation phase) :=
  ⟨rfl, rfl, rfl, generations_setPhase world generation phase⟩

/-- The results that a move can have: nothing is posted, news of a link is, or an alarm
    rings. -/
inductive Stir (world : World) : World → Prop where
  | quiet {after : World} (same : Undisturbed world after) : Stir world after
  | news {after : World} (same : Undisturbed world after) (generation : Nat) (news : LinkNews) :
      Stir world (after.post (.link generation news))
  | rings {index : Nat} {wake : Wake} {alarms : Alarms}
      (rung : world.alarms.ring? index = some (wake, alarms)) :
      Stir world ({ world with alarms := alarms }.post (.wake wake))

theorem stir_step (world : World) (move : Move) : Stir world (world.step move) := by
  have still : Undisturbed world world := ⟨rfl, rfl, rfl, rfl⟩
  cases move with
  | wait millis => exact .quiet ⟨rfl, Alarms.armed_wait _ _, rfl, rfl⟩
  | ring index =>
    simp only [step]
    split
    · next wake alarms rung => exact .rings rung
    · exact .quiet still
  | linkOpens generation capacity =>
    simp only [step]
    split
    · have same : Undisturbed world ({ world with
          channels := world.channels ++ [Channel.fresh generation capacity] }.setPhase generation
            (.opened world.channels.length)) :=
        ⟨rfl, rfl, rfl, generations_setPhase _ _ _⟩
      exact .news same generation _
    · exact .quiet still
  | linkFails generation =>
    simp only [step]
    split
    · exact .news (undisturbed_setPhase world generation _) generation _
    · exact .quiet still
  | linkReports generation event =>
    simp only [step]
    split
    · split
      · exact .news (undisturbed_setPhase world generation _) generation _
      · exact .news still generation _
    · exact .quiet still
  | linkStops generation =>
    simp only [step]
    split
    · exact .quiet (undisturbed_setPhase world generation _)
    · exact .quiet still
  | serverReads channel => exact .quiet ⟨rfl, rfl, rfl, rfl⟩
  | serverLeaves channel => exact .quiet ⟨rfl, rfl, rfl, rfl⟩

@[simp] theorem now_post (world : World) (event : Event) : (world.post event).now = world.now := by
  rw [now, alarms_post, now]

/-- An alarm that rings was armed and due, and is armed no more. -/
theorem ring?_eq_some {alarms later : Alarms} {index : Nat} {wake : Wake}
    (h : alarms.ring? index = some (wake, later)) :
    ∃ alarm, alarms.armed[index]? = some alarm ∧ alarm.due ≤ alarms.now ∧ alarm.wake = wake ∧
      later = { alarms with armed := alarms.armed.eraseIdx index } := by
  unfold Alarms.ring? at h
  split at h
  · next alarm found =>
    split at h
    · next due =>
      simp only [Option.some.injEq, Prod.mk.injEq] at h
      exact ⟨alarm, found, due, h.1, h.2.symm⟩
    · cases h
  · cases h

/-- Only waiting moves the clock. -/
theorem now_step (world : World) (move : Move) :
    (world.step move).now = world.now ∨ ∃ millis, move = .wait millis := by
  cases move with
  | wait millis => exact .inr ⟨millis, rfl⟩
  | ring index =>
    simp only [step]
    split
    · next wake alarms rung =>
      obtain ⟨_, _, _, _, rfl⟩ := ring?_eq_some rung
      exact .inl (now_post _ _)
    · exact .inl rfl
  | linkOpens generation capacity =>
    simp only [step]
    split
    · exact .inl (now_post _ _)
    · exact .inl rfl
  | linkFails generation =>
    simp only [step]
    split
    · exact .inl (now_post _ _)
    · exact .inl rfl
  | linkReports generation event =>
    simp only [step]
    split
    · rw [now_post]
      split <;> exact .inl rfl
    · exact .inl rfl
  | linkStops generation =>
    simp only [step]
    split <;> exact .inl rfl
  | serverReads channel => exact .inl rfl
  | serverLeaves channel => exact .inl rfl

/-- The clock never goes back. -/
theorem now_le_step (world : World) (move : Move) : world.now ≤ (world.step move).now := by
  rcases now_step world move with same | ⟨millis, rfl⟩
  · exact Nat.le_of_eq same.symm
  · exact Alarms.now_le_now_wait world.alarms millis

namespace Stir

variable {world after : World} {alarm : Alarm} {event : Event}

theorem isListening (stir : Stir world after) : after.isListening = world.isListening := by
  cases stir with
  | quiet same => exact same.isListening
  | news same generation news => rw [isListening_post, same.isListening]
  | rings rung => rw [isListening_post]

theorem generations (stir : Stir world after) : after.generations = world.generations := by
  cases stir with
  | quiet same => exact same.generations
  | news same generation news => rw [generations_post, same.generations]
  | rings rung => rw [generations_post]; rfl

theorem mem_events (stir : Stir world after) (h : event ∈ world.events) :
    event ∈ after.events := by
  cases stir with
  | quiet same => rw [same.events]; exact h
  | news same generation news => exact mem_events_post.mpr (.inl (by rw [same.events]; exact h))
  | rings rung => exact mem_events_post.mpr (.inl h)

theorem of_mem_armed (stir : Stir world after) (h : alarm ∈ after.alarms.armed) :
    alarm ∈ world.alarms.armed := by
  cases stir with
  | quiet same => rw [← same.armed]; exact h
  | news same generation news => rw [alarms_post, same.armed] at h; exact h
  | rings rung =>
    obtain ⟨_, _, _, _, rfl⟩ := ring?_eq_some rung
    rw [alarms_post] at h
    exact List.mem_of_mem_eraseIdx h

/-- Moves post news of links, and what armed alarms have to say. -/
theorem of_mem_events (stir : Stir world after) (h : event ∈ after.events) :
    event ∈ world.events ∨ (∃ generation news, event = .link generation news) ∨
      ∃ alarm ∈ world.alarms.armed, event = .wake alarm.wake := by
  cases stir with
  | quiet same => exact .inl (by rw [← same.events]; exact h)
  | news same generation news =>
    rcases mem_events_post.mp h with before | ⟨-, rfl⟩
    · exact .inl (by rw [← same.events]; exact before)
    · exact .inr (.inl ⟨generation, news, rfl⟩)
  | rings rung =>
    obtain ⟨alarm, found, -, rfl, -⟩ := ring?_eq_some rung
    rcases mem_events_post.mp h with before | ⟨-, rfl⟩
    · exact .inl before
    · exact .inr (.inr ⟨alarm, List.mem_of_getElem? found, rfl⟩)

theorem of_posted {wake : Wake} (stir : Stir world after) (h : .wake wake ∈ after.events) :
    .wake wake ∈ world.events ∨
      ∃ alarm ∈ world.alarms.armed, alarm.wake = wake ∧ alarm.due ≤ world.now := by
  cases stir with
  | quiet same => exact .inl (by rw [← same.events]; exact h)
  | news same generation news =>
    rcases mem_events_post.mp h with before | ⟨-, isNews⟩
    · exact .inl (by rw [← same.events]; exact before)
    · cases isNews
  | rings rung =>
    obtain ⟨alarm, found, due, rfl, -⟩ := ring?_eq_some rung
    rcases mem_events_post.mp h with before | ⟨-, same⟩
    · exact .inl before
    · exact .inr ⟨alarm, List.mem_of_getElem? found, (Event.wake.inj same).symm, due⟩

/-- An alarm stays armed until it rings, which it does not before it is due. -/
theorem armed_or_rang (stir : Stir world after) (h : alarm ∈ world.alarms.armed) :
    alarm ∈ after.alarms.armed ∨
      alarm.due ≤ world.now ∧ (world.isListening = true → .wake alarm.wake ∈ after.events) := by
  cases stir with
  | quiet same => rw [same.armed]; exact .inl h
  | news same generation news => rw [alarms_post, same.armed]; exact .inl h
  | @rings index wake alarms rung =>
    obtain ⟨rung, found, due, rfl, rfl⟩ := ring?_eq_some rung
    obtain ⟨position, hposition, rfl⟩ := List.mem_iff_getElem.mp h
    by_cases here : position = index
    · subst here
      rw [List.getElem?_eq_getElem hposition, Option.some.injEq] at found
      refine .inr ⟨by rw [found]; exact due, fun listening => ?_⟩
      exact mem_events_post.mpr (.inr ⟨listening, by rw [found]⟩)
    · rw [alarms_post]
      exact .inl (List.mem_eraseIdx_iff_getElem.mpr ⟨position, hposition, here, rfl⟩)

end Stir

/-- No alarm is overdue. -/
def IsPunctual (world : World) : Prop := ∀ alarm ∈ world.alarms.armed, world.now ≤ alarm.due

/-- The clock does not pass an alarm that is armed. -/
theorem IsPunctual.step {world : World} (punctual : world.IsPunctual) (move : Move) :
    (world.step move).IsPunctual := by
  intro alarm armed
  have before := (stir_step world move).of_mem_armed armed
  rcases now_step world move with same | ⟨millis, rfl⟩
  · rw [same]
    exact punctual alarm before
  · exact Alarms.now_wait_le_due millis before (punctual alarm before)

end World
end Liveboard.Session
