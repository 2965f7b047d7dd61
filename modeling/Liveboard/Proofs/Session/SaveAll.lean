/-
  Liveboard/Proofs/Session/SaveAll.lean
  =====================================
  **Saving a forest: whose answer an entry is.**

  Answers carry no name, so that only counting tells whose they are.  While nobody else
  saves, the entries of a batch are some of the answers that the loop took, these some of
  those that the server gave, it gave no more than it was asked for, and it was asked for
  some of the requests that were issued, all in order (`InStep`).  Once the batch has as
  many entries as it issued requests nothing can have been left out anywhere in between:
  the entry at each position answers the request at the same position (`Matches`).
-/
import Liveboard.Proofs.Session.Batches
import Liveboard.Proofs.Session.SaveFrames

namespace Liveboard.Session

/-- The frame that asks the server for it, in a session with this active chat and id. -/
def SaveRequest.frame (request : SaveRequest) (active sessionId : Option String) : Envelope :=
  .ofAction (request.action.scopedTo active) sessionId

/-! ### Frames for commands -/

/-- These frames were queued for some of these commands, in order. -/
inductive Voices : List Command → List Envelope → Prop where
  | nil : Voices [] []
  | spoken {commands : List Command} {envelopes : List Envelope} {command : Command}
      {action : Action} (voices : Voices commands envelopes)
      (asks : command.action? = some action) (active sessionId : Option String) :
      Voices (commands ++ [command])
        (envelopes ++ [.ofAction (action.scopedTo active) sessionId])
  | silent {commands : List Command} {envelopes : List Envelope}
      (voices : Voices commands envelopes) (command : Command) :
      Voices (commands ++ [command]) envelopes

namespace Voices

variable {commands : List Command} {envelopes : List Envelope}

theorem length_le (voices : Voices commands envelopes) : envelopes.length ≤ commands.length := by
  induction voices with
  | nil => exact Nat.le_refl 0
  | spoken voices asks active sessionId ih =>
    simp only [List.length_append, List.length_singleton]
    omega
  | silent voices command ih =>
    simp only [List.length_append, List.length_singleton]
    omega

/-- If there are as many frames, each command has its own. -/
theorem exists_of_length (voices : Voices commands envelopes)
    (all : commands.length ≤ envelopes.length) {position : Nat} {command : Command}
    (here : commands[position]? = some command) :
    ∃ action active sessionId, command.action? = some action ∧
      envelopes[position]? = some (.ofAction (action.scopedTo active) sessionId) := by
  induction voices with
  | nil => cases here
  | @spoken commands envelopes last action voices asks active sessionId ih =>
    have least := voices.length_le
    simp only [List.length_append, List.length_singleton] at all
    have same : envelopes.length = commands.length := by omega
    rcases Nat.lt_or_ge position commands.length with earlier | beyond
    · rw [List.getElem?_append_left earlier] at here
      rw [List.getElem?_append_left (same ▸ earlier)]
      exact ih (Nat.le_of_eq same.symm) here
    · rw [List.getElem?_append_right beyond, List.getElem?_singleton] at here
      rw [List.getElem?_append_right (same ▸ beyond), same]
      split at here
      · next first =>
        cases here
        rw [first]
        exact ⟨action, active, sessionId, asks, rfl⟩
      · cases here
  | silent voices command ih =>
    have least := voices.length_le
    simp only [List.length_append, List.length_singleton] at all
    omega

end Voices

/-- Who is told of a confirmation is settled by it. -/
theorem length_confirmations_le (records : List Record) :
    (records.filterMap Record.confirmation?).length ≤
      (records.filterMap Record.settled?).length := by
  induction records with
  | nil => exact Nat.le_refl 0
  | cons record records ih =>
    cases record with
    | settled ticket result =>
      rw [List.filterMap_cons_some (f := Record.settled?) rfl, List.length_cons]
      cases result with
      | ok component =>
        rw [List.filterMap_cons_some (f := Record.confirmation?) rfl, List.length_cons]
        exact Nat.succ_le_succ ih
      | error failure =>
        rw [List.filterMap_cons_none rfl]
        exact Nat.le_succ_of_le ih
    | _ => exact ih

theorem System.Confirmed.confirmations_eq {records : List Record} {saved : List SavedComponent}
    (confirmed : Confirmed records (records.filterMap Record.settled?) saved)
    (once : (records.filterMap Record.settled?).Nodup) :
    records.filterMap Record.confirmation? = saved := by
  induction records generalizing saved with
  | nil => exact (List.eq_nil_of_length_eq_zero confirmed.length.symm).symm
  | cons record records ih =>
    cases record with
    | settled ticket result =>
      have parts : (Record.settled ticket result :: records).filterMap Record.settled? =
        ticket :: records.filterMap Record.settled? := rfl
      obtain ⟨length, settled⟩ := confirmed
      rw [parts] at length settled
      obtain ⟨fresh, later⟩ := List.nodup_cons.mp (parts ▸ once)
      cases saved with
      | nil => cases length
      | cons component saved =>
        have here := settled (ticket, component) List.mem_cons_self
        cases eq_of_settled once List.mem_cons_self here
        refine congrArg _ (ih ⟨Nat.succ.inj length, fun pair h => ?_⟩ later)
        rcases List.mem_cons.mp (settled pair (List.mem_cons_of_mem _ h)) with same | there
        · injection same with same
          exact absurd (same ▸ (List.of_mem_zip h).1) fresh
        · exact there
    | _ =>
      refine ih ⟨confirmed.length, fun pair h => ?_⟩ once
      rcases List.mem_cons.mp (confirmed.settled pair h) with same | there
      · cases same
      · exact there

theorem eq_of_perm_of_length_le_one {α : Type} {items others : List α} (perm : items.Perm others)
    (few : items.length ≤ 1) : items = others := by
  match items with
  | [] => exact (List.nil_perm.mp perm).symm
  | [item] => exact List.singleton_perm.mp perm
  | _ :: _ :: _ => exact absurd few (by simp)

namespace System

variable {system begun : System} {index : Nat} {requests : List SaveRequest}
  {history moves : List Move} {move : Move} {after : System × List Record}

/-- The frames that asked the server for a save in the course of a run. -/
def saveFrames (system : System) (moves : List Move) : List Envelope :=
  (system.run moves).2.filterMap Record.saveFrame?

/-- The answers to saves that the server gave in the course of a run. -/
def saveAnswers (system : System) (moves : List Move) : List (Except Failure SavedComponent) :=
  (system.noted posts? moves).filterMap Event.answer?

/-- The confirmations that callers were given in the course of a run. -/
def confirmations (system : System) (moves : List Move) : List SavedComponent :=
  (system.run moves).2.filterMap Record.confirmation?

/-- While a batch is under way, all saves are its own, and the server gives one answer at most
    to each frame that asks for one. -/
structure Undisturbed (begun : System) (index : Nat) (moves : List Move) : Prop where
  /-- When it starts, no save waits to be handled, -/
  queue : begun.saveQueue = []
  /-- none waits for an answer, -/
  requests : begun.client.saves.unsettled = []
  /-- and no answer waits to be taken. -/
  events : begun.world.events.filterMap Event.answer? = []
  alone : ∀ {earlier move command}, earlier ++ [move] <+: moves →
    (begun.run earlier).1.returned? index = none →
      (begun.run earlier).1.submitted? ((begun.run earlier).1.step move).1 = some command →
        command.isSave = true → move = .runBatch index
  answers : ∀ {earlier move}, earlier ++ [move] <+: moves →
    (begun.run earlier).1.returned? index = none →
      (begun.saveAnswers (earlier ++ [move])).length ≤
        (begun.saveFrames (earlier ++ [move])).length

/-- The frames that the server answered in the course of a run, each with its answer: the
    server answers in order. -/
def exchanges (system : System) (moves : List Move) :
    List (Envelope × Except Failure SavedComponent) :=
  (system.saveFrames moves).zip (system.saveAnswers moves)

/-- The entry at each position is what the server answered to the request there. -/
def Matches (requests : List SaveRequest)
    (exchanges : List (Envelope × Except Failure SavedComponent))
    (saved : List SavedComponent) : Prop :=
  ∀ (position : Nat) (component : SavedComponent), saved[position]? = some component →
    ∃ (request : SaveRequest) (active sessionId : Option String),
      requests[position]? = some request ∧
      exchanges[position]? = some (request.frame active sessionId, Except.ok component)

theorem Matches.concat {saved : List SavedComponent}
    (same : Matches requests (system.exchanges moves) saved) (move : Move) :
    Matches requests (system.exchanges (moves ++ [move])) saved := by
  intro position component entry
  obtain ⟨request, active, sessionId, asked, answered⟩ := same position component entry
  obtain ⟨queued, given⟩ := List.getElem?_zip_eq_some.mp answered
  refine ⟨request, active, sessionId, asked, List.getElem?_zip_eq_some.mpr ⟨?_, ?_⟩⟩
  · rw [saveFrames, filterMap_run_concat, ← saveFrames]
    exact (List.getElem?_append_left (List.getElem?_eq_some_iff.mp queued).1).trans queued
  · rw [saveAnswers, noted_concat, List.filterMap_append, ← saveAnswers]
    exact (List.getElem?_append_left (List.getElem?_eq_some_iff.mp given).1).trans given

/-- How a batch that is under way and all saves keep step. -/
structure InStep (begun : System) (index : Nat) (moves : List Move) : Prop where
  /-- The tickets of the batch are settled, but for the last one perhaps. -/
  settled : (begun.run moves).2.filterMap Record.settled? ++ (begun.run moves).1.savers =
    begun.tickets index moves
  alone : (begun.run moves).1.savers.length ≤ 1
  displaced : (begun.run moves).1.client.saves.displaced = []
  /-- The loop takes what the batch submitted, -/
  taken : begun.noted takesSave? moves ++ (begun.run moves).1.saveQueue <+:
    begun.submissions index moves
  waits : (begun.run moves).1.isRunning = true →
    begun.noted takesSave? moves ++ (begun.run moves).1.saveQueue =
      begun.submissions index moves
  /-- and queues frames for it. -/
  voices : Voices (begun.noted takesSave? moves) (begun.saveFrames moves)
  /-- What callers are told is part of what the loop was told. -/
  told : ((begun.confirmations moves).map .ok).Sublist
    ((begun.noted takes? moves).filterMap Event.answer?)

/-! ### One turn -/

/-- Where nobody else asks for a save, the batch submits what asks for one. -/
theorem submits?_of_alone {batch : Batch} (found : system.batches[index]? = some batch)
    (alone : ∀ {command}, system.submitted? (system.step move).1 = some command →
      command.isSave = true → move = .runBatch index) :
    (submits? index system move).toList =
      (system.submitted? (system.step move).1).toList.filter Command.isSave := by
  by_cases mine : move = .runBatch index
  · subst mine
    rw [← submits?_runBatch]
    cases submits : submits? index system (.runBatch index) with
    | none => rfl
    | some command =>
      obtain ⟨-, request, rfl⟩ := of_submits? found submits
      rfl
  · rw [submits?_of_ne mine]
    cases submitted : system.submitted? (system.step move).1 with
    | none => rfl
    | some command =>
      have other : ¬command.isSave = true := fun saves => mine (alone submitted saves)
      rw [Option.toList_some, List.filter_cons_of_neg other]
      rfl

namespace InStep

variable {first : Nat}

/-- Where every ticket was confirmed, nobody waits. -/
theorem savers_eq_nil (inStep : InStep begun index moves)
    (once : TicketsOnce (begun.run moves).2 (begun.run moves).1) {saved : List SavedComponent}
    (confirmed : Confirmed (begun.run moves).2 (begun.tickets index moves) saved) :
    (begun.run moves).1.savers = [] := by
  refine List.eq_nil_iff_forall_not_mem.mpr fun ticket waits => ?_
  have mine : ticket ∈ begun.tickets index moves := by
    rw [← inStep.settled]
    exact List.mem_append_right _ waits
  obtain ⟨component, settled⟩ := confirmed.exists_of_mem mine
  have before : ticket ∈ (begun.run moves).2.filterMap Record.settled? :=
    List.mem_filterMap.mpr ⟨_, settled, rfl⟩
  exact (List.nodup_append.mp once.once).2.2 ticket before ticket waits rfl

/-- A batch that issues a request is the only one that waits. -/
theorem settled_step (inStep : InStep begun index moves)
    (orderly : OrderlyAfter begun index first requests moves)
    (alone : ∀ {command},
      (begun.run moves).1.submitted? ((begun.run moves).1.step move).1 = some command →
        command.isSave = true → move = .runBatch index) :
    (begun.run (moves ++ [move])).2.filterMap Record.settled? ++
        (begun.run (moves ++ [move])).1.savers = begun.tickets index (moves ++ [move]) ∧
      (begun.run (moves ++ [move])).1.savers.length ≤ 1 ∧
      (((begun.run moves).1.step move).2.filterMap Record.settled?).length ≤ 1 := by
  obtain ⟨batch, found, -, standing⟩ := orderly.standing
  obtain ⟨fresh, perm, -, -, same⟩ :=
    (turn_step (begun.run moves).1 move).savers_perm orderly.once.numbered
  have mine := submits?_of_alone found alone
  have given : fresh.toList =
      (submits? index (begun.run moves).1 move).toList.filterMap Command.saver? := by
    rw [mine, same]
    cases (begun.run moves).1.submitted? ((begun.run moves).1.step move).1 with
    | none => rfl
    | some command =>
      cases waits : command.saver? with
      | some ticket =>
        simp [Command.isSave_of_saver? waits, waits]
      | none => cases saves : command.isSave <;> simp [saves, waits]
  have few : ((begun.run moves).1.savers ++ fresh.toList).length ≤ 1 := by
    cases submits : submits? index (begun.run moves).1 move with
    | none =>
      rw [given, submits, Option.toList_none, List.filterMap_nil, List.append_nil]
      exact inStep.alone
    | some command =>
      obtain ⟨ready, request, rfl⟩ := of_submits? found submits
      rw [inStep.savers_eq_nil orderly.once (standing.confirmed_of_ready ready), given, submits]
      exact Nat.le_refl 1
  have moved := eq_of_perm_of_length_le_one perm few
  rw [filterMap_run_concat, run_concat, tickets, submissions, noted_concat, List.filterMap_append]
  rw [moved, List.length_append] at few
  refine ⟨?_, by omega, by omega⟩
  rw [List.append_assoc, ← moved, ← List.append_assoc, inStep.settled, given]
  rfl

/-- A request is opened while no other is, and the others are only settled. -/
theorem displaced_step (inStep : InStep begun index moves)
    (numbered : (begun.run moves).1.client.saves.Numbered) (move : Move) :
    (begun.run (moves ++ [move])).1.client.saves.displaced = [] := by
  rw [run_concat]
  have turn := turn_step (begun.run moves).1 move
  rcases turn.saves numbered with ⟨registration, -, registers⟩ | ⟨-, settled, releases, -⟩
  · have alone := inStep.alone
    have queued := List.length_pos_of_mem registers.queued
    rw [savers, List.length_append, List.length_map] at alone
    have free : (begun.run moves).1.client.saves.unsettled = [] :=
      List.eq_nil_of_length_eq_zero (by omega)
    rw [registers.saves]
    exact free
  · refine List.eq_nil_iff_forall_not_mem.mpr fun entry displaced => ?_
    -- what is set aside now was open before, so it was the latest request, and it is not now
    have before := releases.mem_of_mem (List.mem_append_right _ displaced)
    rw [Confirmations.unsettled, inStep.displaced, List.append_nil] at before
    have latest := numbered.current entry (Option.mem_toList.mp before)
    have older := releases.numbered.displaced entry displaced
    rw [releases.nextId] at older
    omega

/-- The loop takes what was submitted, in order. -/
theorem taken_step (inStep : InStep begun index moves) {batch : Batch}
    (found : (begun.run moves).1.batches[index]? = some batch)
    (alone : ∀ {command},
      (begun.run moves).1.submitted? ((begun.run moves).1.step move).1 = some command →
        command.isSave = true → move = .runBatch index) :
    (begun.noted takesSave? (moves ++ [move]) ++ (begun.run (moves ++ [move])).1.saveQueue <+:
        begun.submissions index (moves ++ [move])) ∧
      ((begun.run (moves ++ [move])).1.isRunning = true →
        begun.noted takesSave? (moves ++ [move]) ++ (begun.run (moves ++ [move])).1.saveQueue =
          begun.submissions index (moves ++ [move])) := by
  have turn := turn_step (begun.run moves).1 move
  have mine := submits?_of_alone found alone
  rw [run_concat, submissions, noted_concat, noted_concat, ← submissions, List.append_assoc, mine]
  rcases turn.saveQueue with same | ⟨halted, none, nothing, silent⟩
  · rw [← same, ← List.append_assoc]
    constructor
    · cases submitted : (begun.run moves).1.submitted? ((begun.run moves).1.step move).1 with
      | none =>
        rw [Option.toList_none, List.filter_nil, List.append_nil, List.append_nil]
        exact inStep.taken
      | some command =>
        exact inStep.waits (turn.isRunning_of_submitted? submitted) ▸ List.prefix_refl _
    · intro running
      rw [inStep.waits (turn.isRunning_of running)]
  · rw [none, nothing, silent]
    constructor
    · have taken := (List.prefix_append _ _).trans inStep.taken
      simpa using taken
    · intro running
      rw [halted] at running
      cases running

theorem voices_step (inStep : InStep begun index moves) (move : Move) :
    Voices (begun.noted takesSave? (moves ++ [move])) (begun.saveFrames (moves ++ [move])) := by
  have turn := turn_step (begun.run moves).1 move
  rw [saveFrames, filterMap_run_concat, noted_concat, ← saveFrames]
  rcases turn.saveFrames with none | ⟨command, action, active, sessionId, taken, saves, asks, one⟩
  · rw [none, List.append_nil]
    cases (begun.run moves).1.takesSave? move with
    | none =>
      rw [Option.toList_none, List.append_nil]
      exact inStep.voices
    | some command => exact .silent inStep.voices command
  · have same : (begun.run moves).1.takesSave? move = some command := by
      rw [takesSave?, taken]
      exact if_pos saves
    rw [one, same]
    exact .spoken inStep.voices asks active sessionId

/-- A caller is told that its component was saved by an answer that the loop takes. -/
theorem told_step (inStep : InStep begun index moves)
    (few : (((begun.run moves).1.step move).2.filterMap Record.settled?).length ≤ 1) :
    ((begun.confirmations (moves ++ [move])).map .ok).Sublist
      ((begun.noted takes? (moves ++ [move])).filterMap Event.answer?) := by
  have turn := turn_step (begun.run moves).1 move
  rw [confirmations, filterMap_run_concat, noted_concat, ← confirmations, List.map_append,
    List.filterMap_append]
  refine inStep.told.append ?_
  have fewer := Nat.le_trans (length_confirmations_le ((begun.run moves).1.step move).2) few
  cases told : ((begun.run moves).1.step move).2.filterMap Record.confirmation? with
  | nil => exact List.nil_sublist _
  | cons component rest =>
    rw [told, List.length_cons] at fewer
    have last : rest = [] := List.eq_nil_of_length_eq_zero (by omega)
    obtain ⟨event, takes, confirms⟩ := turn.confirmations (told ▸ List.mem_cons_self)
    rw [last, takes, Option.toList_some, List.filterMap_cons_some confirms]
    exact List.Sublist.refl _

theorem step (inStep : InStep begun index moves)
    (orderly : OrderlyAfter begun index first requests moves)
    (alone : ∀ {command},
      (begun.run moves).1.submitted? ((begun.run moves).1.step move).1 = some command →
        command.isSave = true → move = .runBatch index) :
    InStep begun index (moves ++ [move]) := by
  obtain ⟨batch, found, -⟩ := orderly.standing
  obtain ⟨settled, few, once⟩ := inStep.settled_step orderly alone
  obtain ⟨taken, waits⟩ := inStep.taken_step found alone
  exact ⟨settled, few, inStep.displaced_step orderly.once.numbered move, taken, waits,
    inStep.voices_step move, inStep.told_step once⟩

/-- Nothing is left out between the requests and the entries: each list is part of the next,
    and the last is no longer than the first. -/
theorem nothing_left_out (inStep : InStep begun index moves)
    (orderly : OrderlyAfter begun index first requests moves)
    {saved : List SavedComponent}
    (confirmed : Confirmed (begun.run moves).2 (begun.tickets index moves) saved)
    (taken : (begun.noted takes? moves).filterMap Event.answer? <+: begun.saveAnswers moves)
    (few : (begun.saveAnswers moves).length ≤ (begun.saveFrames moves).length) :
    saved.map .ok <+: begun.saveAnswers moves ∧
      begun.noted takesSave? moves = begun.submissions index moves ∧
      (begun.submissions index moves).length = (begun.saveFrames moves).length := by
  have all : (begun.run moves).2.filterMap Record.settled? = begun.tickets index moves := by
    have settled := inStep.settled
    rwa [inStep.savers_eq_nil orderly.once confirmed, List.append_nil] at settled
  have entries : begun.confirmations moves = saved := by
    rw [← all] at confirmed
    exact confirmed.confirmations_eq (List.nodup_append.mp orderly.once.once).1
  have issued : (begun.submissions index moves).length = saved.length := by
    rw [orderly.commands, List.length_zipWith, Nat.min_eq_right orderly.room, confirmed.length]
  have handled := (List.prefix_append _ _).trans inStep.taken
  have told := inStep.told
  rw [entries] at told
  have toldTaken := told.length_le
  have takenGiven := taken.length_le
  have queuedHandled := inStep.voices.length_le
  have handledIssued := handled.length_le
  rw [List.length_map] at toldTaken
  refine ⟨?_, handled.eq_of_length_le (by omega), by omega⟩
  rw [told.eq_of_length_le (by rw [List.length_map]; omega)]
  exact taken

theorem matches_of_confirmed (inStep : InStep begun index moves)
    (orderly : OrderlyAfter begun index first requests moves)
    {saved : List SavedComponent}
    (confirmed : Confirmed (begun.run moves).2 (begun.tickets index moves) saved)
    (taken : (begun.noted takes? moves).filterMap Event.answer? <+: begun.saveAnswers moves)
    (few : (begun.saveAnswers moves).length ≤ (begun.saveFrames moves).length) :
    Matches requests (begun.exchanges moves) saved := by
  obtain ⟨⟨later, given⟩, handled, same⟩ := inStep.nothing_left_out orderly confirmed taken few
  have voices := inStep.voices
  rw [handled] at voices
  intro position component entry
  obtain ⟨short, -⟩ := List.getElem?_eq_some_iff.mp entry
  obtain ⟨request, ticket, asked, issued⟩ :=
    orderly.getElem?_commands (confirmed.length ▸ short)
  obtain ⟨action, active, sessionId, asks, queued⟩ :=
    voices.exists_of_length (Nat.le_of_eq same) issued
  cases asks
  refine ⟨request, active, sessionId, asked, List.getElem?_zip_eq_some.mpr ⟨queued, ?_⟩⟩
  rw [← given, List.getElem?_append_left (by rw [List.length_map]; exact short),
    List.getElem?_map, entry]
  rfl

end InStep

/-! ### Runs -/

theorem Undisturbed.mono (undisturbed : Undisturbed begun index moves)
    (earlier : history <+: moves) : Undisturbed begun index history :=
  ⟨undisturbed.queue, undisturbed.requests, undisturbed.events,
    fun part => undisturbed.alone (part.trans earlier),
    fun part => undisturbed.answers (part.trans earlier)⟩

theorem Undisturbed.inStep (undisturbed : Undisturbed begun index moves) :
    InStep begun index [] := by
  have idle : begun.commands.filterMap Command.saver? = [] := by
    refine List.filterMap_eq_nil_iff.mpr fun command queued => ?_
    refine Option.eq_none_iff_forall_ne_some.mpr fun ticket waits => ?_
    have other := List.filter_eq_nil_iff.mp undisturbed.queue command queued
    exact other (Command.isSave_of_saver? waits)
  have free : begun.savers = [] := by
    rw [savers, undisturbed.requests, idle]
    rfl
  have none : begun.noted takesSave? [] ++ begun.saveQueue = begun.submissions index [] := by
    rw [undisturbed.queue]
    rfl
  refine ⟨?_, ?_, (List.append_eq_nil_iff.mp undisturbed.requests).2, ?_, fun _ => none, .nil,
    List.nil_sublist _⟩
  · exact free
  · rw [run, free]
    exact Nat.zero_le 1
  · exact none ▸ List.prefix_refl _

/-- The events that are taken are the first of those that waited and those that are posted. -/
theorem queued_of_attends (attends : ∀ moves, Attends (begun.run moves).1) (moves : List Move) :
    Queued (begun.world.events ++ begun.noted posts? moves) (begun.noted takes? moves)
      (begun.run moves).1 := by
  refine history_induction (P := fun history system =>
    Queued (begun.world.events ++ begun.noted posts? history) (begun.noted takes? history)
      system) ?_ ?_ moves
  · rw [noted, noted, List.append_nil]
    exact ⟨fun _ => rfl, List.nil_prefix⟩
  · intro history move queued
    rw [noted_concat, noted_concat, ← List.append_assoc]
    exact queued.step (attends history) move

/-- The answers that the loop takes are the first that the server gives. -/
theorem answers_taken (attends : ∀ moves, Attends (begun.run moves).1)
    (undisturbed : Undisturbed begun index moves) :
    (begun.noted takes? moves).filterMap Event.answer? <+: begun.saveAnswers moves := by
  have inOrder := (queued_of_attends attends moves).inOrder.filterMap Event.answer?
  rwa [List.filterMap_append, undisturbed.events, List.nil_append] at inOrder

/-- The entries of a batch that is over, by what it and all saves have come to. -/
theorem matches_of_returned {first : Nat}
    (orderly : OrderlyAfter begun index first requests moves)
    (attends : ∀ moves, Attends (begun.run moves).1) (undisturbed : Undisturbed begun index moves)
    (inStep : InStep begun index moves)
    (few : (begun.saveAnswers moves).length ≤ (begun.saveFrames moves).length)
    {saved : List SavedComponent}
    (returned : (begun.run moves).1.returned? index = some (.ok saved)) :
    Matches requests (begun.exchanges moves) saved := by
  obtain ⟨batch, found, -, standing⟩ := orderly.standing
  rw [returned?, found] at returned
  exact inStep.matches_of_confirmed orderly
    (standing.confirmed_of_finished (Batch.phase_of_result? returned))
    (answers_taken attends undisturbed) few

/-- Until the batch is over it keeps step with all saves, and from then on its entries stay
    what they are. -/
theorem matches_run {first : Nat}
    (orderly : ∀ moves, OrderlyAfter begun index first requests moves)
    (attends : ∀ moves, Attends (begun.run moves).1) (moves : List Move)
    (undisturbed : Undisturbed begun index moves) :
    ((begun.run moves).1.returned? index = none → InStep begun index moves) ∧
      ∀ {saved}, (begun.run moves).1.returned? index = some (.ok saved) →
        Matches requests (begun.exchanges moves) saved := by
  revert undisturbed
  refine history_induction (P := fun history system => Undisturbed begun index history →
    (system.returned? index = none → InStep begun index history) ∧
      ∀ {saved}, system.returned? index = some (.ok saved) →
        Matches requests (begun.exchanges history) saved) ?_ ?_ moves
  · intro undisturbed
    refine ⟨fun _ => undisturbed.inStep, fun returned => ?_⟩
    exact matches_of_returned (orderly []) attends undisturbed undisturbed.inStep (Nat.le_refl 0)
      returned
  · intro history move ih undisturbed
    obtain ⟨inStep, same⟩ := ih (undisturbed.mono (List.prefix_append _ _))
    have part := List.prefix_refl (history ++ [move])
    cases returns : (begun.run history).1.returned? index with
    | none =>
      have inStep := (inStep returns).step (orderly history) (undisturbed.alone part returns)
      refine ⟨fun _ => inStep, fun returned => ?_⟩
      rw [← run_concat] at returned
      exact matches_of_returned (orderly (history ++ [move])) attends undisturbed inStep
        (undisturbed.answers part returns) returned
    | some result =>
      have kept := returned?_step returns move
      refine ⟨fun none => ?_, fun {saved} returned => ?_⟩
      · rw [kept] at none
        cases none
      · exact (same (returns.trans (kept.symm.trans returned))).concat move

/-- **Saving a forest is one save after the other.**  Whatever happens meanwhile, the call
    issues the first entries of the forest, in order and each once, a further one only when
    the last was confirmed and none after an error or once it found the client offline; if it
    ends well it returns one confirmation for each that it issued.

    If all saves meanwhile are its own, and the server answers each frame at most once, then
    no request is ever set aside by a later one, and what is returned at each position is
    what the server answered to the frame for the entry at that position. -/
theorem forest_saved_in_turn (settings : Settings) (credential : Option String)
    (before : List Move) (forest : Forest) (call : List Move) :
    let system := ((start settings credential).run before).1
    let index := system.batches.length
    let requests := forest.savables.map SaveRequest.ofSavable
    let begun := system.begin requests
    InTurn begun index requests call ∧
      (Undisturbed begun index call →
        (∀ earlier, earlier <+: call → (begun.run earlier).1.returned? index = none →
          (begun.run earlier).1.client.saves.displaced = []) ∧
        ∀ saved, (begun.run call).1.returned? index = some (.ok saved) →
          Matches requests (begun.exchanges call) saved) := by
  intro system index requests begun
  have orderly := orderly_run settings credential before requests
  have attends : ∀ moves, Attends (begun.run moves).1 := by
    intro moves
    have whole := attends_run settings credential (before ++ .startBatch requests :: moves)
    rw [run_append] at whole
    exact whole
  refine ⟨inTurn_of_orderly orderly call, fun undisturbed => ⟨?_, ?_⟩⟩
  · intro earlier part pending
    exact ((matches_run orderly attends earlier (undisturbed.mono part)).1 pending).displaced
  · intro saved returned
    exact (matches_run orderly attends call undisturbed).2 returned

theorem exists_of_concat_prefix {earlier moves : List Move} {move : Move}
    (part : earlier ++ [move] <+: moves) :
    ∃ n, ∃ bound : n < moves.length, earlier = moves.take n ∧ move = moves[n] ∧
      earlier ++ [move] = moves.take (n + 1) := by
  obtain ⟨later, rfl⟩ := part
  refine ⟨earlier.length, by simp, by simp, by simp, ?_⟩
  rw [List.take_append_of_le_length (by simp), List.take_of_length_le (by simp)]

/-- Two components are saved while another caller asks for a new chat: the server answers the
    first, is asked for the second, and answers it. -/
theorem forest_saved_by_two_answers :
    let settings : Settings := ⟨"ws://localhost/ui", ["render"], 3, 1, 10, 5⟩
    let before : List Move :=
      [.submit .connect, .takeCommand, .world (.linkOpens 1 8), .takeEvent "session"]
    let forest : Forest := [.ofKind "metric", .ofKind "table"]
    let stored (id : String) : SavedComponent := ⟨id, "chat", .ofKind "card", "card", "", none⟩
    let answer (id : String) : Move := .world (.linkReports 1 (.frame
      (Json.obj [("type", .str "component_saved"), ("component", (stored id).wire)]).compact))
    let call : List Move :=
      [.runBatch 0, .submit (.send .newChat), .takeCommand, answer "first", .takeEvent "",
        .runBatch 0, .runBatch 0, .takeCommand, .takeCommand, answer "second", .takeEvent "",
        .runBatch 0, .runBatch 0]
    let requests := forest.savables.map SaveRequest.ofSavable
    let begun := ((start settings (some "token")).run before).1.begin requests
    Undisturbed begun 0 call ∧
      ∃ saved, (begun.run call).1.returned? 0 = some (.ok saved) ∧
        saved.map SavedComponent.id = ["first", "second"] ∧
        Matches requests (begun.exchanges call) saved := by
  intro settings before forest stored answer call requests begun
  -- one evaluation for all of it: reading the two answers is what takes time
  obtain ⟨own, few, ids⟩ : (∀ n (_ : n < call.length),
        ((begun.run (call.take n)).1.submitted? ((begun.run (call.take n)).1.step call[n]).1).any
          Command.isSave = true → n = 0 ∨ n = 6) ∧
      (∀ n < call.length, (begun.saveAnswers (call.take (n + 1))).length ≤
        (begun.saveFrames (call.take (n + 1))).length) ∧
      ((begun.run call).1.returned? 0).map (fun result =>
        result.toOption.map (List.map SavedComponent.id)) = some (some ["first", "second"]) := by
    decide +kernel
  have undisturbed : Undisturbed begun 0 call := by
    refine ⟨by decide +kernel, by rfl, by decide +kernel, ?_, ?_⟩
    · intro earlier move command part _ submitted saves
      obtain ⟨n, bound, rfl, rfl, -⟩ := exists_of_concat_prefix part
      rcases own n bound (by rw [submitted]; exact saves) with rfl | rfl <;> rfl
    · intro earlier move part _
      obtain ⟨n, bound, -, -, same⟩ := exists_of_concat_prefix part
      rw [same]
      exact few n bound
  obtain ⟨result, returned, is⟩ := Option.map_eq_some_iff.mp ids
  cases result with
  | error failure => cases is
  | ok saved =>
    have matching := (forest_saved_in_turn settings (some "token") before forest call).2 undisturbed
    exact ⟨undisturbed, saved, returned, Option.some.inj is, matching.2 saved returned⟩

end System
end Liveboard.Session
