/-
  Liveboard/Proofs/Session/Queues.lean
  ====================================
  **What the outbound queues take of what they are offered.**

  A queue accepts a frame while the server listens and there is room, and drops it
  otherwise.  So it accepts part of what it is offered, in order; and of the first frames,
  as many as it has room for, none is dropped before another is accepted
  (`Channel.Accounts`).  Orders and moves keep these accounts, for every queue by
  itself.  Which link a queue belongs to never changes.
-/
import Liveboard.Proofs.Session.Surroundings

namespace Liveboard.Session

/-! ### Frames on record -/

/-- The frame that is offered to this queue, accepted or not. -/
def Record.offered? (index : Nat) : Record → Option Envelope
  | .queued channel envelope | .refused channel envelope =>
    if channel = index then some envelope else none
  | _ => none

def Record.accepted? (index : Nat) : Record → Option Envelope
  | .queued channel envelope => if channel = index then some envelope else none
  | _ => none

def Order.offered? (index : Nat) : Order → Option Envelope
  | .offer channel envelope => if channel = index then some envelope else none
  | _ => none

theorem World.offered_perform (index : Nat) (world : World) (order : Order) :
    (world.perform order).2.filterMap (Record.offered? index) =
      (order.offered? index).toList := by
  cases order with
  | offer channel envelope =>
    simp only [World.perform]
    by_cases same : channel = index
    · split <;> simp [Record.offered?, Order.offered?, same]
    · split <;> simp [Record.offered?, Order.offered?, same]
  | _ => rfl

/-! ### One queue -/

namespace Channel

variable {channel : Channel} {offered accepted : List Envelope}

/-- A queue that was offered these frames and accepted those. -/
structure Accounts (channel : Channel) (offered accepted : List Envelope) : Prop where
  part : accepted.Sublist offered
  unread : channel.unread.length ≤ accepted.length
  /-- The server listens, and there always was room. -/
  whole : channel.isHeard = true → accepted.length < channel.capacity → accepted = offered
  first : accepted.take channel.capacity <+: offered

theorem accounts_fresh (generation capacity : Nat) :
    (fresh generation capacity).Accounts [] [] := by
  refine ⟨List.Sublist.refl [], Nat.le_refl 0, fun _ _ => rfl, ?_⟩
  exact List.take_prefix capacity []

theorem Accounts.accept (accounts : channel.Accounts offered accepted)
    (accepts : channel.accepts = true) (envelope : Envelope) :
    ({ channel with unread := channel.unread ++ [envelope] } : Channel).Accounts
      (offered ++ [envelope]) (accepted ++ [envelope]) := by
  obtain ⟨heard, -⟩ := Bool.and_eq_true_iff.mp accepts
  constructor
  · exact accounts.part.append (List.Sublist.refl [envelope])
  · have least := accounts.unread
    simp only [List.length_append, List.length_singleton]
    omega
  · intro _ room
    rw [List.length_append, List.length_singleton] at room
    have room : accepted.length < channel.capacity := by
      have capacity : accepted.length + 1 < channel.capacity := room
      omega
    rw [accounts.whole heard room]
  · by_cases room : accepted.length < channel.capacity
    · rw [accounts.whole heard room]
      exact List.take_prefix channel.capacity (offered ++ [envelope])
    · have full : channel.capacity ≤ accepted.length := Nat.le_of_not_lt room
      show (accepted ++ [envelope]).take channel.capacity <+: offered ++ [envelope]
      rw [List.take_append_of_le_length full]
      exact accounts.first.trans (List.prefix_append offered [envelope])

theorem Accounts.refuse (accounts : channel.Accounts offered accepted)
    (refuses : channel.accepts = false) (envelope : Envelope) :
    channel.Accounts (offered ++ [envelope]) accepted := by
  constructor
  · exact accounts.part.trans (List.sublist_append_left offered [envelope])
  · exact accounts.unread
  · intro heard room
    -- it was refused for want of room
    have full : channel.capacity ≤ channel.unread.length := by
      rw [accepts, heard, Bool.true_and, decide_eq_false_iff_not, Nat.not_lt] at refuses
      exact refuses
    have least := accounts.unread
    omega
  · exact accounts.first.trans (List.prefix_append offered [envelope])

theorem Accounts.read (accounts : channel.Accounts offered accepted) :
    ({ channel with unread := [] } : Channel).Accounts offered accepted :=
  ⟨accounts.part, Nat.zero_le _, accounts.whole, accounts.first⟩

theorem Accounts.leave (accounts : channel.Accounts offered accepted) :
    ({ channel with unread := [], isHeard := false } : Channel).Accounts offered accepted :=
  ⟨accounts.part, Nat.zero_le _, fun heard => (Bool.false_ne_true heard).elim, accounts.first⟩

theorem Accounts.release (accounts : channel.Accounts offered accepted) :
    ({ channel with isHeld := false } : Channel).Accounts offered accepted :=
  ⟨accounts.part, accounts.unread, accounts.whole, accounts.first⟩

end Channel

/-! ### The queues of a world -/

namespace World

variable {world after : World} {index : Nat} {offered accepted : List Envelope}

/-- The queue of this number was offered these frames and accepted those. -/
structure Accounts (world : World) (index : Nat) (offered accepted : List Envelope) : Prop where
  born : ∀ channel, world.channels[index]? = some channel → channel.Accounts offered accepted
  unborn : world.channels[index]? = none → accepted = []

theorem Accounts.of_channels (accounts : world.Accounts index offered accepted)
    (same : after.channels = world.channels) : after.Accounts index offered accepted := by
  constructor
  · rw [same]
    exact accounts.born
  · rw [same]
    exact accounts.unborn

/-- Changing one queue without harm to its accounts leaves the others alone. -/
theorem Accounts.modify (accounts : world.Accounts index offered accepted)
    {changed : Nat} {change : Channel → Channel}
    (harmless : changed = index → ∀ channel : Channel, channel.Accounts offered accepted →
      (change channel).Accounts offered accepted)
    (same : after.channels = world.channels.modify changed change) :
    after.Accounts index offered accepted := by
  constructor
  · intro channel found
    rw [same, List.getElem?_modify] at found
    obtain ⟨before, present, rfl⟩ := Option.map_eq_some_iff.mp found
    split
    · next here => exact harmless here before (accounts.born before present)
    · exact accounts.born before present
  · intro absent
    rw [same, List.getElem?_modify, Option.map_eq_map, Option.map_eq_none_iff] at absent
    exact accounts.unborn absent

theorem accepts_eq_true_iff :
    world.accepts index = true ↔
      ∃ channel, world.channels[index]? = some channel ∧ channel.accepts = true := by
  rw [accepts]
  cases world.channels[index]? <;> simp

theorem Accounts.offer (accounts : world.Accounts index offered accepted) (envelope : Envelope) :
    (world.perform (.offer index envelope)).1.Accounts index (offered ++ [envelope])
      (accepted ++ (world.perform (.offer index envelope)).2.filterMap
        (Record.accepted? index)) := by
  simp only [perform]
  split
  · next accepts =>
    obtain ⟨channel, present, accepts⟩ := accepts_eq_true_iff.mp accepts
    have taken :
        [Record.queued index envelope].filterMap (Record.accepted? index) = [envelope] := by
      simp [Record.accepted?]
    rw [taken]
    constructor
    · intro changed found
      simp only [List.getElem?_modify, present, if_pos, Option.map_eq_map, Option.map_some,
        Option.some.injEq] at found
      subst found
      exact (accounts.born channel present).accept accepts envelope
    · intro absent
      simp only [List.getElem?_modify, present, Option.map_eq_map, Option.map_some] at absent
      cases absent
  · next refuses =>
    have taken : [Record.refused index envelope].filterMap (Record.accepted? index) = [] := rfl
    rw [taken, List.append_nil]
    constructor
    · intro channel present
      have refuses : channel.accepts = false := by
        rw [← Bool.not_eq_true]
        intro accepts
        exact refuses (accepts_eq_true_iff.mpr ⟨channel, present, accepts⟩)
      exact (accounts.born channel present).refuse refuses envelope
    · exact accounts.unborn

theorem Accounts.perform (accounts : world.Accounts index offered accepted) (order : Order) :
    (world.perform order).1.Accounts index (offered ++ (order.offered? index).toList)
      (accepted ++ (world.perform order).2.filterMap (Record.accepted? index)) := by
  by_cases mine : ∃ envelope, order = .offer index envelope
  · obtain ⟨envelope, rfl⟩ := mine
    rw [Order.offered?, if_pos rfl]
    exact accounts.offer envelope
  · have none : order.offered? index = none ∧
        (world.perform order).2.filterMap (Record.accepted? index) = [] := by
      cases order with
      | offer channel envelope =>
        have other : channel ≠ index := by
          rintro rfl
          exact mine ⟨envelope, rfl⟩
        constructor
        · rw [Order.offered?, if_neg other]
        · simp only [World.perform]
          split <;> simp [Record.accepted?, other]
      | _ => exact ⟨rfl, rfl⟩
    rw [none.1, none.2, Option.toList_none, List.append_nil, List.append_nil]
    cases order with
    | offer channel envelope =>
      have other : channel ≠ index := by
        rintro rfl
        exact mine ⟨envelope, rfl⟩
      simp only [World.perform]
      split
      · exact accounts.modify (fun here => absurd here other) rfl
      · exact accounts
    | release channel => exact accounts.modify (fun _ _ => Channel.Accounts.release) rfl
    | _ => exact accounts.of_channels rfl

theorem Accounts.performAll (accounts : world.Accounts index offered accepted)
    (orders : List Order) :
    (world.performAll orders).1.Accounts index
      (offered ++ (world.performAll orders).2.filterMap (Record.offered? index))
      (accepted ++ (world.performAll orders).2.filterMap (Record.accepted? index)) := by
  induction orders generalizing world offered accepted with
  | nil =>
    simp only [World.performAll, List.filterMap_nil, List.append_nil]
    exact accounts
  | cons order orders ih =>
    have next := accounts.perform order
    rw [← offered_perform] at next
    have later := ih next
    simp only [World.performAll, List.filterMap_append, ← List.append_assoc]
    exact later

theorem Accounts.deafen (accounts : world.Accounts index offered accepted) :
    world.deafen.1.Accounts index
      (offered ++ world.deafen.2.filterMap (Record.offered? index))
      (accepted ++ world.deafen.2.filterMap (Record.accepted? index)) := by
  obtain ⟨orders, -, same⟩ := exists_deafen world
  have deaf : ({ world with events := [], isListening := false } : World).Accounts index
      offered accepted := accounts.of_channels rfl
  rw [same]
  exact deaf.performAll orders

/-! ### Moves -/

/-- What a move can make of the queues. -/
inductive Serves (channels : List Channel) : List Channel → Prop where
  | still : Serves channels channels
  | opens (generation capacity : Nat) :
      Serves channels (channels ++ [.fresh generation capacity])
  | reads (index : Nat) :
      Serves channels (channels.modify index fun channel => { channel with unread := [] })
  | leaves (index : Nat) :
      Serves channels
        (channels.modify index fun channel => { channel with unread := [], isHeard := false })

@[simp] theorem channels_post (world : World) (event : Event) :
    (world.post event).channels = world.channels := by
  unfold post
  split <;> rfl

theorem serves_step (world : World) (move : Move) :
    Serves world.channels (world.step move).channels := by
  cases move with
  | ring index =>
    simp only [step]
    split
    · next wake alarms rung =>
      rw [channels_post]
      exact .still
    · exact .still
  | linkOpens generation capacity =>
    simp only [step]
    split
    · rw [channels_post]
      exact .opens generation capacity
    · exact .still
  | linkFails generation =>
    simp only [step]
    split
    · rw [channels_post]
      exact .still
    · exact .still
  | linkReports generation event =>
    simp only [step]
    split
    · rw [channels_post]
      split <;> exact .still
    · exact .still
  | linkStops generation =>
    simp only [step]
    split <;> exact .still
  | wait millis => exact .still
  | serverReads index => exact .reads index
  | serverLeaves index => exact .leaves index

theorem Accounts.step (accounts : world.Accounts index offered accepted) (move : Move)
    (fresh : index = world.channels.length → offered = []) :
    (world.step move).Accounts index offered accepted := by
  have serves := serves_step world move
  generalize same : (world.step move).channels = channels at serves
  cases serves with
  | still => exact accounts.of_channels same
  | opens generation capacity =>
    constructor
    · intro channel found
      rw [same] at found
      rcases Nat.lt_or_ge index world.channels.length with earlier | beyond
      · rw [List.getElem?_append_left earlier] at found
        exact accounts.born channel found
      · rw [List.getElem?_append_right beyond] at found
        have here : index = world.channels.length := by
          have last := (List.getElem?_eq_some_iff.mp found).1
          rw [List.length_singleton] at last
          omega
        have isFresh := List.mem_singleton.mp (List.mem_of_getElem? found)
        rw [isFresh, fresh here, accounts.unborn (List.getElem?_eq_none beyond)]
        exact Channel.accounts_fresh generation capacity
    · intro absent
      rw [same, List.getElem?_eq_none_iff, List.length_append] at absent
      apply accounts.unborn
      rw [List.getElem?_eq_none_iff]
      omega
  | reads changed => exact accounts.modify (fun _ _ => Channel.Accounts.read) same
  | leaves changed => exact accounts.modify (fun _ _ => Channel.Accounts.leave) same

end World
end Liveboard.Session
