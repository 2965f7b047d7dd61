/-
  Liveboard/Proofs/Session/Openings.lean
  ======================================
  **Every link that opens has one queue, and reports it once.**

  Queues are numbered in the order in which links open, and the report of a link names the
  queue that was made for it.  So the openings that were posted are the queues with the
  generations they belong to (`openings_run`), and since a link opens once, a generation
  has at most one queue.
-/
import Liveboard.Proofs.Session.Isolation
import Liveboard.Proofs.Session.Queues

namespace Liveboard.Session

/-- The generation and the queue of a link that reports that it opened. -/
def Event.opening? : Event → Option (Nat × Nat)
  | .link generation (.opened channel) => some (generation, channel)
  | _ => none

theorem Event.opening?_eq_some_iff {event : Event} {generation channel : Nat} :
    event.opening? = some (generation, channel) ↔ event = .link generation (.opened channel) := by
  constructor
  · intro opening
    unfold opening? at opening
    split at opening
    · cases opening
      rfl
    · cases opening
  · rintro rfl
    rfl

theorem mem_openings {events : List Event} {generation channel : Nat} :
    (generation, channel) ∈ events.filterMap Event.opening? ↔
      .link generation (.opened channel) ∈ events := by
  rw [List.mem_filterMap]
  constructor
  · rintro ⟨event, posted, opening⟩
    rwa [← Event.opening?_eq_some_iff.mp opening]
  · intro posted
    exact ⟨_, posted, rfl⟩

theorem LinkNews.opened_mem_session {index channel : Nat} {texts : List String} :
    .opened index ∈ session channel texts ↔ index = channel := by
  simp [session]

namespace World

/-- The generations that the queues belong to. -/
def owners (world : World) : List Nat := world.channels.map (·.generation)

theorem owners_modify (channels : List Channel) (index : Nat) {change : Channel → Channel}
    (same : ∀ channel, (change channel).generation = channel.generation) :
    (channels.modify index change).map (·.generation) = channels.map (·.generation) := by
  apply List.ext_getElem?
  intro position
  simp only [List.getElem?_map, List.getElem?_modify, Option.map_eq_map, Option.map_map]
  congr 1
  funext channel
  simp only [Function.comp_apply]
  split
  · exact same channel
  · rfl

theorem owners_perform (world : World) (order : Order) :
    (world.perform order).1.owners = world.owners := by
  cases order with
  | offer channel envelope =>
    simp only [perform]
    split
    · exact owners_modify world.channels channel fun _ => rfl
    · rfl
  | release channel => exact owners_modify world.channels channel fun _ => rfl
  | _ => rfl

@[simp] theorem owners_performAll (world : World) (orders : List Order) :
    (world.performAll orders).1.owners = world.owners :=
  performAll_eq owners_perform world orders

@[simp] theorem owners_deafen (world : World) : world.deafen.1.owners = world.owners := by
  obtain ⟨orders, -, same⟩ := exists_deafen world
  rw [same, owners_performAll]
  rfl

@[simp] theorem owners_post (world : World) (event : Event) :
    (world.post event).owners = world.owners := by
  rw [owners, channels_post, owners]

/-- A queue is made when a link opens, and the link reports its number. -/
theorem owners_step (world : World) (move : Move) :
    (world.step move).owners.zipIdx =
      world.owners.zipIdx ++ ((world.posts? move).bind Event.opening?).toList := by
  cases move with
  | ring index =>
    simp only [step, posts?]
    split
    · next wake alarms rung =>
      rw [owners_post, rung]
      exact (List.append_nil _).symm
    · next silent =>
      rw [silent]
      exact (List.append_nil _).symm
  | linkOpens generation capacity =>
    simp only [step, posts?]
    split
    · rw [owners_post]
      simp [owners, setPhase, Channel.fresh, Event.opening?, List.zipIdx_append]
    · exact (List.append_nil _).symm
  | linkFails generation =>
    simp only [step, posts?]
    split
    · rw [owners_post]
      exact (List.append_nil _).symm
    · exact (List.append_nil _).symm
  | linkReports generation event =>
    simp only [step, posts?]
    split
    · rw [owners_post]
      split <;> exact (List.append_nil _).symm
    · exact (List.append_nil _).symm
  | linkStops generation =>
    simp only [step, posts?]
    split <;> exact (List.append_nil _).symm
  | serverReads index | serverLeaves index =>
    simp only [step, posts?, owners, owners_modify, implies_true]
    exact (List.append_nil _).symm
  | wait millis => exact (List.append_nil _).symm

end World

namespace System

variable {system : System} {move : Move} {after : System × List Record}

theorem Turn.owners (turn : Turn system move after) (inside : ∀ stir, move ≠ .world stir) :
    after.1.world.owners = system.world.owners := by
  cases turn with
  | @handled move input sessionId taken =>
    rw [world_carryOut, World.owners_performAll]
    cases input <;> rfl
  | ending running next => rw [world_stop, World.owners_deafen, World.owners_performAll]
  | surroundings move => exact absurd rfl (inside move)
  | _ => rfl

theorem owners_step (system : System) (move : Move) :
    (system.step move).1.world.owners.zipIdx =
      system.world.owners.zipIdx ++ ((system.posts? move).bind Event.opening?).toList := by
  by_cases outside : ∃ stir, move = .world stir
  · obtain ⟨stir, rfl⟩ := outside
    exact World.owners_step system.world stir
  · have inside : ∀ stir, move ≠ .world stir := fun stir same => outside ⟨stir, same⟩
    rw [(turn_step system move).owners inside, posts?_of_inside inside]
    exact (List.append_nil _).symm

/-- The openings posted in a run are the queues that were made, each with its owner. -/
theorem openings_run (settings : Settings) (credential : Option String) (moves : List Move) :
    ((start settings credential).noted posts? moves).filterMap Event.opening? =
      ((start settings credential).run moves).1.world.owners.zipIdx := by
  refine history_induction (P := fun history system =>
    ((start settings credential).noted posts? history).filterMap Event.opening? =
      system.world.owners.zipIdx) ?_ ?_ moves
  · rfl
  · intro history move same
    rw [noted_concat, List.filterMap_append, same, owners_step]
    cases ((start settings credential).run history).1.posts? move with
    | none => rfl
    | some event => cases opening : event.opening? <;> simp [opening]

section queues

variable {settings : Settings} {credential : Option String} {moves : List Move}
  {generation index other : Nat}

theorem posted_opening_iff :
    .link generation (.opened index) ∈ (start settings credential).noted posts? moves ↔
      ((start settings credential).run moves).1.world.owners[index]? = some generation := by
  rw [← mem_openings, openings_run, List.mem_zipIdx_iff_getElem?]

/-- An opening that the loop took names the owner of the queue. -/
theorem owner_of_taken
    (taken : .link generation (.opened index) ∈ (start settings credential).noted takes? moves) :
    ((start settings credential).run moves).1.world.owners[index]? = some generation :=
  posted_opening_iff.mp ((queued_run settings credential moves).inOrder.subset taken)

/-- A link opens once. -/
theorem eq_of_owner
    (first : ((start settings credential).run moves).1.world.owners[index]? = some generation)
    (second : ((start settings credential).run moves).1.world.owners[other]? = some generation) :
    index = other := by
  have said : ∀ {channel : Nat},
      ((start settings credential).run moves).1.world.owners[channel]? = some generation →
        .opened channel ∈ (start settings credential).reports generation moves := by
    intro channel owned
    apply List.mem_filterMap.mpr
    exact ⟨_, posted_opening_iff.mpr owned, if_pos rfl⟩
  have script := (spoken_run settings credential generation moves).script
  have here := said first
  have there := said second
  revert here there
  generalize (start settings credential).reports generation moves = reports at script
  intro here there
  cases script with
  | silent => cases here
  | failed => simp at here
  | opened channel texts =>
    rw [LinkNews.opened_mem_session] at here there
    exact here.trans there.symm
  | finished channel texts final =>
    rw [List.mem_append, LinkNews.opened_mem_session, List.mem_singleton] at here there
    exact (here.resolve_right (by simp)).trans (there.resolve_right (by simp)).symm

/-- The opening of a queue is taken once. -/
theorem not_taken_before
    (taken : ((start settings credential).run moves).1.takes? move =
      some (.link generation (.opened index))) :
    .link other (.opened index) ∉ (start settings credential).noted takes? moves := by
  intro before
  have queued := queued_run settings credential (moves ++ [move])
  have inOrder := queued.inOrder.filterMap Event.opening?
  rw [openings_run, noted_concat, taken, List.filterMap_append] at inOrder
  have numbers := inOrder.map Prod.snd
  have distinct : (((start settings credential).run (moves ++ [move])).1.world.owners.zipIdx.map
      Prod.snd).Nodup := by
    rw [List.zipIdx_map_snd]
    exact List.nodup_range'
  have apart := distinct.sublist numbers.sublist
  rw [List.map_append, List.nodup_append] at apart
  refine apart.2.2 index ?_ index List.mem_cons_self rfl
  exact List.mem_map.mpr ⟨(other, index), mem_openings.mpr before, rfl⟩

/-- A link is not taken to open twice. -/
theorem not_opened_before
    (taken : ((start settings credential).run moves).1.takes? move =
      some (.link generation (.opened index))) :
    .link generation (.opened other) ∉ (start settings credential).noted takes? moves := by
  intro before
  have now : .link generation (.opened index) ∈
      (start settings credential).noted takes? (moves ++ [move]) := by
    rw [noted_concat, taken]
    exact List.mem_append_right _ List.mem_cons_self
  have earlier : .link generation (.opened other) ∈
      (start settings credential).noted takes? (moves ++ [move]) := by
    rw [noted_concat]
    exact List.mem_append_left _ before
  have same := eq_of_owner (owner_of_taken now) (owner_of_taken earlier)
  subst same
  exact not_taken_before taken before

end queues

end System
end Liveboard.Session
