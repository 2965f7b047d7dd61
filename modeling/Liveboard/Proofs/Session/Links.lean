/-
  Liveboard/Proofs/Session/Links.lean
  ===================================
  **What links post, and the order in which the loop takes it.**

  A link posts that it opened, then the frames it receives, and at most one last report; a
  link that fails posts that one report alone, and one that is cut may fall silent at any
  point (`spoken_run`).  Links, timers and the loop share one queue: what the loop has taken
  and what still waits is, in order, what was posted (`queued_run`).
-/
import Liveboard.Proofs.Session.Course

namespace Liveboard.Session

/-! ### What a link says -/

/-- The news of the link of a generation. -/
def Event.newsOf? (generation : Nat) : Event → Option LinkNews
  | .link other news => if other = generation then some news else none
  | .wake _ => none

namespace LinkNews

def frame? : LinkNews → Option String
  | .reported (.frame text) => some text
  | _ => none

/-- A link opened and received these frames. -/
def session (channel : Nat) (texts : List String) : List LinkNews :=
  .opened channel :: texts.map fun text => .reported (.frame text)

theorem session_concat (channel : Nat) (texts : List String) (text : String) :
    session channel texts ++ [.reported (.frame text)] = session channel (texts ++ [text]) := by
  simp [session]

end LinkNews

/-- The frames of a link among events. -/
def frames (generation : Nat) (events : List Event) : List String :=
  (events.filterMap (Event.newsOf? generation)).filterMap LinkNews.frame?

theorem frames_singleton (generation other : Nat) (news : LinkNews) :
    frames generation [.link other news] =
      if other = generation then news.frame?.toList else [] := by
  by_cases same : other = generation
  · cases said : news.frame? <;> simp [frames, Event.newsOf?, same, said]
  · simp [frames, Event.newsOf?, same]

theorem frames_append (generation : Nat) (events later : List Event) :
    frames generation (events ++ later) = frames generation events ++ frames generation later := by
  rw [frames, List.filterMap_append, List.filterMap_append, frames, frames]

theorem frames_mono {events later : List Event} (within : events <+: later) (generation : Nat) :
    frames generation events <+: frames generation later :=
  (within.filterMap _).filterMap _

/-- What a link may have posted up to some moment. -/
inductive Script : List LinkNews → Prop where
  | silent : Script []
  | failed : Script [.reported .closed]
  | opened (channel : Nat) (texts : List String) : Script (LinkNews.session channel texts)
  | finished (channel : Nat) (texts : List String) {event : LinkEvent}
      (final : event.isFinal = true) :
      Script (LinkNews.session channel texts ++ [.reported event])

/-- What a link has posted by the time it is in this phase; `none` is a link not started. -/
def Spoken : Option LinkPhase → List LinkNews → Prop
  | none, said | some .connecting, said => said = []
  | some (.opened channel), said => ∃ texts, said = LinkNews.session channel texts
  | some .ended, said => Script said

theorem Spoken.script {phase? : Option LinkPhase} {said : List LinkNews}
    (spoken : Spoken phase? said) : Script said := by
  rcases phase? with _ | _ | channel | _
  · cases spoken
    exact .silent
  · cases spoken
    exact .silent
  · obtain ⟨texts, rfl⟩ := spoken
    exact .opened channel texts
  · exact spoken

/-- What one move can make of a link, and what the link posts by it. -/
inductive Speaks : Option LinkPhase → Option LinkNews → Option LinkPhase → Prop where
  | silent (phase? : Option LinkPhase) : Speaks phase? none phase?
  | starts : Speaks none none (some .connecting)
  | opens (channel : Nat) : Speaks (some .connecting) (some (.opened channel)) (some (.opened channel))
  | fails : Speaks (some .connecting) (some (.reported .closed)) (some .ended)
  | receives (channel : Nat) (text : String) :
      Speaks (some (.opened channel)) (some (.reported (.frame text))) (some (.opened channel))
  | finishes (channel : Nat) {event : LinkEvent} (final : event.isFinal = true) :
      Speaks (some (.opened channel)) (some (.reported event)) (some .ended)
  | stops (phase : LinkPhase) : Speaks (some phase) none (some .ended)

theorem Spoken.speaks {phase? later? : Option LinkPhase} {news? : Option LinkNews}
    {said : List LinkNews} (spoken : Spoken phase? said) (speaks : Speaks phase? news? later?) :
    Spoken later? (said ++ news?.toList) := by
  cases speaks with
  | silent => rwa [Option.toList_none, List.append_nil]
  | starts => rwa [Option.toList_none, List.append_nil]
  | opens channel =>
    cases spoken
    exact ⟨[], rfl⟩
  | fails =>
    cases spoken
    exact .failed
  | receives channel text =>
    obtain ⟨texts, rfl⟩ := spoken
    exact ⟨texts ++ [text], LinkNews.session_concat channel texts text⟩
  | finishes channel final =>
    obtain ⟨texts, rfl⟩ := spoken
    exact .finished channel texts final
  | stops phase =>
    rw [Option.toList_none, List.append_nil]
    exact spoken.script

/-! ### What the surroundings post -/

namespace World

/-- What a move posts, whether anyone listens or not. -/
def posts? (world : World) : Move → Option Event
  | .ring index => (world.alarms.ring? index).map fun rung => .wake rung.1
  | .linkOpens generation _ =>
    if world.isConnecting generation && world.isListening then
      some (.link generation (.opened world.channels.length))
    else none
  | .linkFails generation =>
    if world.isConnecting generation then some (.link generation (.reported .closed)) else none
  | .linkReports generation event =>
    if world.isLinkOpen generation then some (.link generation (.reported event)) else none
  | _ => none

theorem events_post {world : World} {event : Event} (listening : world.isListening = true) :
    (world.post event).events = world.events ++ [event] := by
  rw [post, if_pos listening]

theorem events_step {world : World} (listening : world.isListening = true) (move : Move) :
    (world.step move).events = world.events ++ (world.posts? move).toList := by
  cases move with
  | ring index =>
    simp only [step, posts?]
    split
    · next wake alarms rung =>
      rw [rung]
      exact events_post listening
    · next silent =>
      rw [silent]
      exact (List.append_nil _).symm
  | linkOpens generation capacity =>
    simp only [step, posts?]
    split
    · exact events_post listening
    · exact (List.append_nil _).symm
  | linkFails generation =>
    simp only [step, posts?]
    split
    · exact events_post listening
    · exact (List.append_nil _).symm
  | linkReports generation event =>
    simp only [step, posts?]
    split
    · split <;> exact events_post listening
    · exact (List.append_nil _).symm
  | linkStops generation =>
    simp only [step, posts?]
    split <;> exact (List.append_nil _).symm
  | _ => exact (List.append_nil _).symm

/-! ### The phase of a link -/

/-- The phase of the link of a generation, once it was started. -/
def linkPhase? (world : World) (generation : Nat) : Option LinkPhase :=
  (world.link? generation).map (·.phase)

theorem linkPhase?_eq_none {world : World} {generation : Nat}
    (absent : generation ∉ world.generations) : world.linkPhase? generation = none := by
  rw [linkPhase?, link?, Option.map_eq_none_iff, List.find?_eq_none]
  intro link linked same
  exact absent (List.mem_map.mpr ⟨link, linked, beq_iff_eq.mp same⟩)

theorem generation_of_link? {world : World} {generation : Nat} {link : Link}
    (found : world.link? generation = some link) : link.generation = generation := by
  rw [link?] at found
  exact beq_iff_eq.mp (List.find?_some (p := fun link : Link => link.generation == generation) found)

theorem isConnecting_iff {world : World} {generation : Nat} :
    world.isConnecting generation = true ↔ world.linkPhase? generation = some .connecting := by
  rw [isConnecting, linkPhase?]
  cases world.link? generation with
  | none => simp
  | some link =>
    rw [Option.any_some, Option.map_some, Option.some.injEq]
    cases link.phase <;> constructor <;> intro h <;> cases h <;> rfl

theorem isLinkOpen_iff {world : World} {generation : Nat} :
    world.isLinkOpen generation = true ↔
      ∃ channel, world.linkPhase? generation = some (.opened channel) := by
  rw [isLinkOpen, linkPhase?]
  cases world.link? generation with
  | none => simp
  | some link => cases phase : link.phase <;> simp [phase]

/-- Changing links without renumbering them changes each for itself. -/
theorem linkPhase?_map {world after : World} {change : Link → Link}
    (changed : after.links = world.links.map change)
    (same : ∀ link, (change link).generation = link.generation) (generation : Nat) :
    after.linkPhase? generation =
      (world.link? generation).map fun link => (change link).phase := by
  have kept : (fun link : Link => link.generation == generation) ∘ change =
      fun link => link.generation == generation := by
    funext link
    rw [Function.comp_apply, same]
  rw [linkPhase?, link?, changed, List.find?_map, kept, Option.map_map]
  rfl

theorem linkPhase?_setPhase (world : World) (generation other : Nat) (phase : LinkPhase) :
    (world.setPhase generation phase).linkPhase? other =
      if other = generation then (world.linkPhase? other).map fun _ => phase
      else world.linkPhase? other := by
  have same : ∀ link : Link, (if link.generation = generation then { link with phase := phase }
      else link).generation = link.generation := by
    intro link
    split <;> rfl
  rw [linkPhase?_map rfl same other, linkPhase?]
  cases found : world.link? other with
  | none => simp
  | some link =>
    rw [Option.map_some, Option.map_some, generation_of_link? found]
    split <;> rfl

@[simp] theorem linkPhase?_post (world : World) (event : Event) (generation : Nat) :
    (world.post event).linkPhase? generation = world.linkPhase? generation := by
  unfold post
  split <;> rfl

/-- The move that is to open, fail or end a link leaves every other link alone. -/
theorem speaks_setPhase {world : World} {generation : Nat} {before later : LinkPhase}
    {news? : Option LinkNews} (is : world.linkPhase? generation = some before)
    (speaks : Speaks (some before) news? (some later)) (other : Nat) :
    Speaks (world.linkPhase? other)
      (if generation = other then news? else none)
      ((world.setPhase generation later).linkPhase? other) := by
  rw [linkPhase?_setPhase]
  by_cases same : other = generation
  · subst same
    rw [if_pos rfl, if_pos rfl, is]
    exact speaks
  · rw [if_neg (Ne.symm same), if_neg same]
    exact .silent _

/-- Every link does what a link can do, and posts what it says. -/
theorem speaks_step (world : World) (move : Move) (generation : Nat) :
    Speaks (world.linkPhase? generation) ((world.posts? move).bind (Event.newsOf? generation))
      ((world.step move).linkPhase? generation) := by
  cases move with
  | ring index =>
    simp only [step, posts?]
    split
    · next wake alarms rung =>
      rw [rung, linkPhase?_post]
      exact .silent _
    · next silent =>
      rw [silent]
      exact .silent _
  | linkOpens other capacity =>
    simp only [step, posts?]
    split
    · next can =>
      have connecting := isConnecting_iff.mp (Bool.and_eq_true_iff.mp can).1
      rw [linkPhase?_post]
      exact speaks_setPhase connecting (.opens world.channels.length) generation
    · exact .silent _
  | linkFails other =>
    simp only [step, posts?]
    split
    · next can =>
      rw [linkPhase?_post]
      exact speaks_setPhase (isConnecting_iff.mp can) .fails generation
    · exact .silent _
  | linkReports other event =>
    simp only [step, posts?]
    split
    · next can =>
      obtain ⟨channel, opened⟩ := isLinkOpen_iff.mp can
      rw [linkPhase?_post]
      cases final : event.isFinal with
      | true => exact speaks_setPhase opened (.finishes channel final) generation
      | false =>
        obtain ⟨text, rfl⟩ : ∃ text, event = .frame text := by
          cases event with
          | frame text => exact ⟨text, rfl⟩
          | _ => cases final
        rw [Option.bind_some, Event.newsOf?, if_neg Bool.false_ne_true]
        by_cases same : other = generation
        · subst same
          rw [if_pos rfl, opened]
          exact .receives channel text
        · rw [if_neg same]
          exact .silent _
    · exact .silent _
  | linkStops other =>
    simp only [step, posts?]
    split
    · next cut =>
      cases found : world.link? other with
      | none =>
        rw [found] at cut
        cases cut
      | some link =>
        have is : world.linkPhase? other = some link.phase := by rw [linkPhase?, found]; rfl
        have stops := speaks_setPhase is (.stops link.phase) generation
        rwa [ite_self] at stops
    · exact .silent _
  | _ => exact .silent _

/-- Orders start links, and change no link that was started. -/
theorem linkPhase?_perform (world : World) (order : Order) (generation : Nat) :
    (world.perform order).1.linkPhase? generation = world.linkPhase? generation ∨
      world.linkPhase? generation = none ∧
        (world.perform order).1.linkPhase? generation = some .connecting := by
  cases order with
  | attempt started url =>
    simp only [perform, linkPhase?, link?, List.find?_append, List.find?_singleton]
    cases world.links.find? fun link => link.generation == generation with
    | some link => exact .inl rfl
    | none =>
      by_cases same : started = generation
      · exact .inr ⟨rfl, by simp [same]⟩
      · exact .inl (by simp [same])
  | cut ended =>
    have same : ∀ link, (cutLink ended link).generation = link.generation ∧
        (cutLink ended link).phase = link.phase := by
      intro link
      unfold cutLink
      split <;> exact ⟨rfl, rfl⟩
    have cut : (world.perform (.cut ended)).1.links = world.links.map (cutLink ended) := rfl
    have mapped := linkPhase?_map cut (fun link => (same link).1) generation
    simp only [same] at mapped
    exact .inl mapped
  | endScope =>
    let cutAll : Link → Link := fun link => { link with isCut := true }
    have cut : (world.perform .endScope).1.links = world.links.map cutAll := rfl
    have mapped := linkPhase?_map cut (fun link => rfl) generation
    exact .inl mapped
  | offer channel envelope =>
    simp only [perform]
    split <;> exact .inl rfl
  | _ => exact .inl rfl

theorem linkPhase?_performAll (world : World) (orders : List Order) (generation : Nat) :
    (world.performAll orders).1.linkPhase? generation = world.linkPhase? generation ∨
      world.linkPhase? generation = none ∧
        (world.performAll orders).1.linkPhase? generation = some .connecting := by
  induction orders generalizing world with
  | nil => exact .inl rfl
  | cons order orders ih =>
    rw [fst_performAll_cons]
    rcases linkPhase?_perform world order generation with first | ⟨none, first⟩
    · rw [← first]
      exact ih _
    · rcases ih (world.perform order).1 with later | ⟨other, -⟩
      · exact .inr ⟨none, later.trans first⟩
      · rw [first] at other
        cases other

theorem speaks_performAll (world : World) (orders : List Order) (generation : Nat) :
    Speaks (world.linkPhase? generation) none
      ((world.performAll orders).1.linkPhase? generation) := by
  rcases linkPhase?_performAll world orders generation with same | ⟨none, started⟩
  · rw [same]
    exact .silent _
  · rw [none, started]
    exact .starts

theorem speaks_deafen (world : World) (generation : Nat) :
    Speaks (world.linkPhase? generation) none (world.deafen.1.linkPhase? generation) := by
  obtain ⟨orders, -, same⟩ := exists_deafen world
  rw [same]
  exact speaks_performAll { world with events := [], isListening := false } orders generation

end World

/-! ### What a run posts and takes -/

def Input.event? : Input → Option Event
  | .event taken => some taken
  | .command _ => none

namespace System

variable {system : System} {move : Move} {after : System × List Record} {posted taken : List Event}

def posts? (system : System) : Move → Option Event
  | .world move => system.world.posts? move
  | _ => none

/-- The event that the loop takes by a move. -/
def takes? (system : System) (move : Move) : Option Event :=
  (system.input? move).bind Input.event?

/-- What the link of a generation posts in the course of a run. -/
def reports (system : System) (generation : Nat) (moves : List Move) : List LinkNews :=
  (system.noted posts? moves).filterMap (Event.newsOf? generation)

/-- The frames that the link of a generation receives in the course of a run. -/
def received (system : System) (generation : Nat) (moves : List Move) : List String :=
  frames generation (system.noted posts? moves)

theorem takes?_eq_some_iff {event : Event} :
    system.takes? move = some event ↔ Takes (.event event) system move := by
  rw [takes?, Takes]
  cases system.input? move with
  | none => simp
  | some input => cases input <;> simp [Input.event?]

theorem takes?_of_nothing (nothing : system.input? move = none) : system.takes? move = none := by
  rw [takes?, nothing]
  rfl

theorem posts?_of_inside (inside : ∀ stir, move ≠ .world stir) : system.posts? move = none := by
  cases move with
  | world stir => exact absurd rfl (inside stir)
  | _ => rfl

/-- The loop and its callers start links, and do nothing else to them. -/
theorem Turn.spoken (turn : Turn system move after) (inside : ∀ stir, move ≠ .world stir)
    {generation : Nat} {said : List LinkNews}
    (spoken : Spoken (system.world.linkPhase? generation) said) :
    Spoken (after.1.world.linkPhase? generation) said := by
  rw [← List.append_nil said]
  cases turn with
  | @handled move input sessionId taken =>
    have same : (system.without input).world.linkPhase? generation =
        system.world.linkPhase? generation := by cases input <;> rfl
    rw [← same] at spoken
    rw [world_carryOut]
    exact spoken.speaks (World.speaks_performAll _ _ generation)
  | @ending left running next =>
    have last := spoken.speaks (World.speaks_performAll system.world
      (lastOrders { system with commands := left }) generation)
    rw [Option.toList_none, List.append_nil] at last
    rw [world_stop]
    exact last.speaks (World.speaks_deafen _ generation)
  | surroundings move => exact absurd rfl (inside move)
  | submission => rwa [List.append_nil]
  | idle => rwa [List.append_nil]

theorem spoken_step {generation : Nat} {said : List LinkNews}
    (spoken : Spoken (system.world.linkPhase? generation) said) (move : Move) :
    Spoken ((system.step move).1.world.linkPhase? generation)
      (said ++ ((system.posts? move).bind (Event.newsOf? generation)).toList) := by
  by_cases outside : ∃ stir, move = .world stir
  · obtain ⟨stir, rfl⟩ := outside
    exact spoken.speaks (World.speaks_step system.world stir generation)
  · have inside : ∀ stir, move ≠ .world stir := fun stir same => outside ⟨stir, same⟩
    rw [posts?_of_inside inside, Option.bind_none, Option.toList_none, List.append_nil]
    exact (turn_step system move).spoken inside spoken

theorem spoken_run (settings : Settings) (credential : Option String) (generation : Nat)
    (moves : List Move) :
    Spoken (((start settings credential).run moves).1.world.linkPhase? generation)
      ((start settings credential).reports generation moves) := by
  refine history_induction (P := fun history system =>
    Spoken (system.world.linkPhase? generation)
      ((start settings credential).reports generation history)) ?_ ?_ moves
  · rfl
  · intro history move spoken
    have next := spoken_step spoken move
    rw [reports, noted_concat, List.filterMap_append]
    cases posted : ((start settings credential).run history).1.posts? move with
    | none =>
      rw [posted] at next
      exact next
    | some event =>
      rw [posted, Option.bind_some] at next
      cases said : event.newsOf? generation <;> simpa [said, reports] using next

/-! ### The queue -/

/-- The loop takes the first event, and its callers take none. -/
theorem Turn.events (turn : Turn system move after) (inside : ∀ stir, move ≠ .world stir)
    (goesOn : after.1.isRunning = true) :
    system.world.events = (system.takes? move).toList ++ after.1.world.events := by
  cases turn with
  | @handled move input sessionId taken =>
    rw [world_carryOut, World.events_performAll, takes?, taken, Option.bind_some]
    cases input with
    | command command => rfl
    | event event => exact (of_input?_event taken).2.2
  | ending running next =>
    rw [isRunning_stop] at goesOn
    cases goesOn
  | surroundings move => exact absurd rfl (inside move)
  | submission nothing => rw [takes?_of_nothing nothing]; rfl
  | idle nothing => rw [takes?_of_nothing nothing]; rfl

theorem events_step (listening : system.world.isListening = true)
    (goesOn : (system.step move).1.isRunning = true) :
    system.world.events ++ (system.posts? move).toList =
      (system.takes? move).toList ++ (system.step move).1.world.events := by
  by_cases outside : ∃ stir, move = .world stir
  · obtain ⟨stir, rfl⟩ := outside
    exact (World.events_step listening stir).symm
  · have inside : ∀ stir, move ≠ .world stir := fun stir same => outside ⟨stir, same⟩
    rw [posts?_of_inside inside, Option.toList_none, List.append_nil]
    exact (turn_step system move).events inside goesOn

/-- While the loop runs, the events posted are those taken and those that wait; what it has
    taken by its end were the first of them. -/
structure Queued (posted taken : List Event) (system : System) : Prop where
  waits : system.isRunning = true → posted = taken ++ system.world.events
  inOrder : taken <+: posted

theorem Queued.step (queued : Queued posted taken system) (attends : Attends system) (move : Move) :
    Queued (posted ++ (system.posts? move).toList) (taken ++ (system.takes? move).toList)
      (system.step move).1 := by
  have turn := turn_step system move
  have waits : (system.step move).1.isRunning = true →
      posted ++ (system.posts? move).toList =
        taken ++ (system.takes? move).toList ++ (system.step move).1.world.events := by
    intro goesOn
    have running := turn.isRunning_of goesOn
    rw [queued.waits running, List.append_assoc, events_step (attends.listens running) goesOn,
      List.append_assoc]
  refine ⟨waits, ?_⟩
  -- a move that takes an event leaves the loop running, so the end of the loop takes none
  cases given : system.takes? move with
  | none =>
    rw [Option.toList_none, List.append_nil]
    exact queued.inOrder.trans (List.prefix_append posted _)
  | some event =>
    rw [waits (turn.of_takes_event (takes?_eq_some_iff.mp given)).1, given]
    exact List.prefix_append _ _

theorem queued_run (settings : Settings) (credential : Option String) (moves : List Move) :
    Queued ((start settings credential).noted posts? moves)
      ((start settings credential).noted takes? moves)
      ((start settings credential).run moves).1 := by
  refine history_induction (P := fun history system =>
    Queued ((start settings credential).noted posts? history)
      ((start settings credential).noted takes? history) system) ?_ ?_ moves
  · exact ⟨fun _ => rfl, List.prefix_refl _⟩
  · intro history move queued
    rw [noted_concat, noted_concat]
    exact queued.step (attends_run settings credential history) move

end System
end Liveboard.Session
