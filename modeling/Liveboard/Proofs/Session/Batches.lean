/-
  Liveboard/Proofs/Session/Batches.lean
  =====================================
  **A batch issues one request after the other.**

  A batch goes on in four ways: it waits, it takes the answer to its request, it ends, or
  it issues the next request under a fresh ticket (`Goes`).  Nobody else touches it
  (`batch_step`).  So its tickets and its entries keep step: before a request is issued
  every earlier one was confirmed, and a batch that ends well has one entry for each
  (`Standing`).  This holds of every run, whatever else happens in it.
-/
import Liveboard.Proofs.Session.OpenSaves

namespace Liveboard.Session

theorem zipWith_concat {α β γ : Type} {f : α → β → γ} {as rest : List α} {bs : List β} {a : α}
    (next : as.drop bs.length = a :: rest) (b : β) :
    List.zipWith f as (bs ++ [b]) = List.zipWith f as bs ++ [f a b] := by
  induction bs generalizing as with
  | nil =>
    rw [List.length_nil, List.drop_zero] at next
    rw [next, List.nil_append, List.zipWith_cons_cons, List.zipWith_nil_right,
      List.zipWith_nil_right, List.nil_append]
  | cons b' bs ih =>
    cases as with
    | nil => cases next
    | cons a' as =>
      rw [List.cons_append, List.zipWith_cons_cons, List.zipWith_cons_cons, ih next]
      rfl

/-- The command that issues a request, under a ticket. -/
def SaveRequest.command (request : SaveRequest) (ticket : Ticket) : Command :=
  .save request.action ticket

/-- What a batch returned. -/
def Batch.result? (batch : Batch) : Option (Except Failure (List SavedComponent)) :=
  match batch.phase with
  | .finished result => some result
  | _ => none

theorem Batch.phase_of_result? {batch : Batch} {result : Except Failure (List SavedComponent)}
    (returned : batch.result? = some result) : batch.phase = .finished result := by
  unfold result? at returned
  split at returned
  · next other is =>
    cases returned
    exact is
  · cases returned

/-- A batch that is ready ends, with its entries if it ends well, or has a request to issue. -/
theorem Batch.next_cases (batch : Batch) (isOnline isRunning : Bool) :
    (∃ result, batch.next isOnline isRunning = .inl (batch.finish result) ∧
      ∀ saved, result = .ok saved → saved = batch.saved) ∨
    (∃ request rest, batch.remaining = request :: rest ∧ isOnline = true ∧ isRunning = true ∧
      batch.next isOnline isRunning = .inr request) := by
  unfold next
  cases batch.remaining with
  | nil => exact .inl ⟨_, rfl, by simp⟩
  | cons request rest =>
    cases isOnline with
    | false => exact .inl ⟨_, rfl, by simp⟩
    | true =>
      cases isRunning with
      | false => exact .inl ⟨_, rfl, by simp⟩
      | true => exact .inr ⟨request, rest, rfl, rfl, rfl, rfl⟩

def Record.verdict? : Record → Option (Ticket × Except Failure SavedComponent)
  | .settled ticket result => some (ticket, result)
  | _ => none

theorem mem_filterMap_verdict? {records : List Record} {ticket : Ticket}
    {result : Except Failure SavedComponent} :
    (ticket, result) ∈ records.filterMap Record.verdict? ↔ .settled ticket result ∈ records := by
  rw [List.mem_filterMap]
  constructor
  · rintro ⟨record, mem, same⟩
    cases record with
    | settled =>
      cases same
      exact mem
    | _ => cases same
  · intro mem
    exact ⟨_, mem, rfl⟩

/-- A ticket that is settled once has one result. -/
theorem eq_of_settled {records : List Record} {ticket : Ticket}
    {result other : Except Failure SavedComponent}
    (once : (records.filterMap Record.settled?).Nodup) (first : .settled ticket result ∈ records)
    (second : .settled ticket other ∈ records) : result = other := by
  induction records with
  | nil => cases first
  | cons record records ih =>
    have later : ∀ {result}, .settled ticket result ∈ records →
        ticket ∈ records.filterMap Record.settled? :=
      fun mem => List.mem_filterMap.mpr ⟨_, mem, rfl⟩
    rcases List.mem_cons.mp first with rfl | first
    · rcases List.mem_cons.mp second with same | second
      · cases same
        rfl
      · exact absurd (later second) (List.nodup_cons.mp once).1
    · rcases List.mem_cons.mp second with same | second
      · rw [← same] at once
        exact absurd (later first) (List.nodup_cons.mp once).1
      · refine ih ?_ first second
        exact once.sublist ((List.sublist_cons_self record records).filterMap _)

namespace System

variable {system : System} {move : Move} {after : System × List Record}

/-! ### Results at hand -/

theorem results_foldl_observe (records : List Record) (system : System) :
    (records.foldl observe system).results =
      system.results ++ records.filterMap Record.verdict? := by
  induction records generalizing system with
  | nil => exact (List.append_nil _).symm
  | cons record records ih =>
    rw [List.foldl_cons, ih]
    cases record with
    | settled ticket result =>
      rw [List.filterMap_cons_some (f := Record.verdict?) rfl, List.append_cons]
      rfl
    | _ =>
      rw [List.filterMap_cons_none rfl]
      rfl

theorem results_carryOut (system : System) (client : Client) (orders : List Order) :
    (carryOut system client orders).1.results =
      system.results ++ (carryOut system client orders).2.filterMap Record.verdict? :=
  results_foldl_observe _ _

/-- The results at hand were there before, or are given on record. -/
def Reports (system : System) (after : System × List Record) : Prop :=
  ∀ entry ∈ after.1.results, entry ∈ system.results ∨ .settled entry.1 entry.2 ∈ after.2

theorem reports_of_subset {next : System} (records : List Record)
    (subset : ∀ entry ∈ next.results, entry ∈ system.results) :
    Reports system (next, records) :=
  fun entry h => .inl (subset entry h)

theorem reports_carryOut (system : System) (client : Client) (orders : List Order) :
    Reports system (carryOut system client orders) := by
  intro entry h
  rw [results_carryOut] at h
  exact (List.mem_append.mp h).imp_right mem_filterMap_verdict?.mp

theorem reports_stop (system : System) : Reports system system.stop := by
  intro entry h
  rw [stop_eq] at h ⊢
  have reports := reports_carryOut { system with isRunning := false, commands := [] }
    system.client.stop.1 system.lastOrders
  exact (reports entry h).imp_right (List.mem_append_left _)

theorem reports_submit (system : System) (ask : Ask) (records : List Record) :
    Reports system (system.submit ask, records) := by
  refine reports_of_subset records fun entry h => ?_
  unfold submit at h
  split at h <;> exact h

theorem reports_runBatch (system : System) (index : Nat) :
    Reports system (system.runBatch index, []) := by
  have same : Reports system (system, []) := reports_of_subset [] fun _ h => h
  unfold runBatch
  split
  · exact same
  · split
    · exact same
    · split
      · exact same
      · exact reports_of_subset [] fun entry h => (List.mem_filter.mp h).1
    · split
      · exact reports_of_subset [] fun _ h => h
      · exact reports_submit _ _ []

theorem reports_step (system : System) (move : Move) : Reports system (system.step move) := by
  have same : Reports system (system, []) := reports_of_subset [] fun _ h => h
  cases move with
  | takeCommand =>
    simp only [step, takeCommand]
    split
    · exact same
    · split
      · exact reports_stop _
      · exact reports_carryOut _ _ _
      · split
        · exact same
        · exact reports_stop _
  | takeEvent sessionId =>
    simp only [step, takeEvent]
    split
    · exact same
    · split
      · exact reports_carryOut _ _ _
      · exact same
  | submit ask => exact reports_submit system ask []
  | runBatch index => exact reports_runBatch system index
  | _ => exact reports_of_subset [] fun _ h => h

/-! ### What a batch does -/

/-- How a batch goes on. -/
inductive Goes (system : System) (index : Nat) (batch : Batch) : System → Prop where
  | waits (waiting : batch.phase ≠ .ready) : Goes system index batch system
  | takes {ticket : Ticket} {result : Except Failure SavedComponent}
      (waiting : batch.phase = .waiting ticket) (there : (ticket, result) ∈ system.results) :
      Goes system index batch
        { system with
          results := system.results.filter fun entry => entry.1 != ticket
          batches := system.batches.set index (batch.take result) }
  | ends {result : Except Failure (List SavedComponent)} (ready : batch.phase = .ready)
      (whole : ∀ saved, result = .ok saved → saved = batch.saved) :
      Goes system index batch
        { system with batches := system.batches.set index (batch.finish result) }
  | issues {request : SaveRequest} {rest : List SaveRequest} (ready : batch.phase = .ready)
      (next : batch.remaining = request :: rest) (online : system.isOnline = true) :
      Goes system index batch
        { system with
          commands := system.commands ++ [request.command system.nextTicket]
          nextTicket := system.nextTicket + 1
          batches := system.batches.set index { batch with phase := .waiting system.nextTicket } }

theorem goes_runBatch {index : Nat} {batch : Batch}
    (found : system.batches[index]? = some batch) :
    Goes system index batch (system.runBatch index) := by
  unfold runBatch
  rw [found]
  simp only
  split
  · next finished => exact .waits (by rw [finished]; simp)
  · next ticket waiting =>
    split
    · exact .waits (by rw [waiting]; simp)
    · next result there =>
      obtain ⟨earlier, later, same, -⟩ := List.lookup_eq_some_iff.mp there
      refine .takes waiting ?_
      rw [same]
      exact List.mem_append_right _ List.mem_cons_self
  · next ready =>
    rcases batch.next_cases system.isOnline system.isRunning with
      ⟨result, next, whole⟩ | ⟨request, rest, remaining, online, running, next⟩
    · rw [next]
      exact .ends ready whole
    · rw [next]
      simp only [submit, if_pos running]
      exact .issues ready remaining online

@[simp] theorem batches_carryOut (system : System) (client : Client) (orders : List Order) :
    (carryOut system client orders).1.batches = system.batches := by
  obtain ⟨_, _, _, _, same⟩ := exists_carryOut system client orders
  rw [same]

@[simp] theorem batches_stop (system : System) : system.stop.1.batches = system.batches := by
  simp [stop_eq, lastTurn]

theorem batches_takeCommand (system : System) :
    system.takeCommand.1.batches = system.batches := by
  unfold takeCommand
  split
  · rfl
  · split
    · rw [batches_stop]
    · rw [batches_carryOut]
    · split
      · rfl
      · rw [batches_stop]

theorem batches_takeEvent (system : System) (sessionId : String) :
    (system.takeEvent sessionId).1.batches = system.batches := by
  unfold takeEvent
  split
  · rfl
  · split
    · rw [batches_carryOut]
    · rfl

theorem getElem?_batches_runBatch {index other : Nat} (apart : other ≠ index) :
    (system.runBatch other).batches[index]? = system.batches[index]? := by
  cases found : system.batches[other]? with
  | none => simp only [runBatch, found]
  | some batch =>
    have goes := goes_runBatch found
    generalize system.runBatch other = next at goes
    cases goes with
    | waits => rfl
    | _ => exact List.getElem?_set_ne apart

/-- A batch goes on, or it is left alone. -/
theorem batch_step {index : Nat} {batch : Batch} (found : system.batches[index]? = some batch)
    (move : Move) :
    (move = .runBatch index ∧ Goes system index batch (system.step move).1) ∨
      (move ≠ .runBatch index ∧ (system.step move).1.batches[index]? = some batch) := by
  by_cases mine : move = .runBatch index
  · rw [mine]
    exact .inl ⟨rfl, goes_runBatch found⟩
  · refine .inr ⟨mine, ?_⟩
    cases move with
    | takeCommand => rw [step, batches_takeCommand, found]
    | takeEvent sessionId => rw [step, batches_takeEvent, found]
    | submit ask =>
      simp only [step, submit]
      split <;> exact found
    | startBatch requests =>
      exact (List.getElem?_append_left (List.getElem?_eq_some_iff.mp found).1).trans found
    | runBatch other =>
      have apart : other ≠ index := fun same => mine (congrArg Move.runBatch same)
      exact (getElem?_batches_runBatch apart).trans found
    | _ => exact found

/-! ### The requests of a batch -/

/-- The command that the batch at this position submits by a move. -/
def submits? (index : Nat) (system : System) : Move → Option Command
  | .runBatch other => if other = index then system.submitted? (system.runBatch other) else none
  | _ => none

theorem submits?_of_ne {index : Nat} (other : move ≠ .runBatch index) :
    submits? index system move = none := by
  cases move with
  | runBatch position => exact if_neg fun same => other (congrArg Move.runBatch same)
  | _ => rfl

theorem submits?_runBatch (system : System) (index : Nat) :
    submits? index system (.runBatch index) =
      system.submitted? (system.step (.runBatch index)).1 :=
  if_pos rfl

/-- What a batch submits in the course of a run, in order. -/
def submissions (system : System) (index : Nat) (moves : List Move) : List Command :=
  system.noted (submits? index) moves

/-- The tickets that a batch used, in order. -/
def tickets (system : System) (index : Nat) (moves : List Move) : List Ticket :=
  (system.submissions index moves).filterMap Command.saver?

/-- What a batch has returned, if it is over. -/
def returned? (system : System) (index : Nat) : Option (Except Failure (List SavedComponent)) :=
  system.batches[index]?.bind Batch.result?

/-- The callers with these tickets were answered with these components, one each. -/
structure Confirmed (records : List Record) (tickets : List Ticket)
    (saved : List SavedComponent) : Prop where
  length : tickets.length = saved.length
  settled : ∀ pair ∈ tickets.zip saved, .settled pair.1 (.ok pair.2) ∈ records

namespace Confirmed

variable {records : List Record} {tickets : List Ticket} {saved : List SavedComponent}

theorem nil (records : List Record) : Confirmed records [] [] := ⟨rfl, by simp⟩

theorem mono (confirmed : Confirmed records tickets saved) (later : List Record) :
    Confirmed (records ++ later) tickets saved :=
  ⟨confirmed.length, fun pair h => List.mem_append_left _ (confirmed.settled pair h)⟩

theorem concat (confirmed : Confirmed records tickets saved) {ticket : Ticket}
    {component : SavedComponent} (settled : .settled ticket (.ok component) ∈ records) :
    Confirmed records (tickets ++ [ticket]) (saved ++ [component]) := by
  constructor
  · rw [List.length_append, List.length_append, confirmed.length]
    rfl
  · intro pair h
    rw [List.zip_append confirmed.length] at h
    rcases List.mem_append.mp h with h | h
    · exact confirmed.settled pair h
    · rw [List.mem_singleton.mp h]
      exact settled

theorem exists_of_mem (confirmed : Confirmed records tickets saved) {ticket : Ticket}
    (h : ticket ∈ tickets) : ∃ component, .settled ticket (.ok component) ∈ records := by
  obtain ⟨position, bound, rfl⟩ := List.getElem_of_mem h
  have there : position < saved.length := confirmed.length ▸ bound
  refine ⟨saved[position], confirmed.settled (tickets[position], saved[position]) ?_⟩
  rw [List.mem_iff_getElem]
  exact ⟨position, by rw [List.length_zip]; omega, List.getElem_zip⟩

end Confirmed

/-- How a batch stands that used these tickets. -/
inductive Standing (records : List Record) (batch : Batch) : List Ticket → Prop where
  | ready {tickets : List Ticket} (is : batch.phase = .ready)
      (confirmed : Confirmed records tickets batch.saved) : Standing records batch tickets
  | waiting {tickets : List Ticket} {ticket : Ticket} (is : batch.phase = .waiting ticket)
      (confirmed : Confirmed records tickets batch.saved) :
      Standing records batch (tickets ++ [ticket])
  | finished {tickets : List Ticket} (is : batch.phase = .finished (.ok batch.saved))
      (confirmed : Confirmed records tickets batch.saved) : Standing records batch tickets
  | failed {tickets : List Ticket} {failure : Failure}
      (is : batch.phase = .finished (.error failure)) : Standing records batch tickets

namespace Standing

variable {records : List Record} {batch : Batch} {tickets : List Ticket}

theorem mono (standing : Standing records batch tickets) (later : List Record) :
    Standing (records ++ later) batch tickets := by
  cases standing with
  | ready is confirmed => exact .ready is (confirmed.mono later)
  | waiting is confirmed => exact .waiting is (confirmed.mono later)
  | finished is confirmed => exact .finished is (confirmed.mono later)
  | failed is => exact .failed is

theorem confirmed_of_ready (standing : Standing records batch tickets)
    (ready : batch.phase = .ready) : Confirmed records tickets batch.saved := by
  cases standing with
  | ready is confirmed => exact confirmed
  | waiting is | finished is | failed is =>
    rw [ready] at is
    cases is

theorem confirmed_of_finished (standing : Standing records batch tickets)
    {saved : List SavedComponent} (finished : batch.phase = .finished (.ok saved)) :
    Confirmed records tickets saved := by
  cases standing with
  | finished is confirmed =>
    rw [finished] at is
    cases is
    exact confirmed
  | ready is | waiting is | failed is =>
    rw [finished] at is
    cases is

/-- The answer to the last ticket is taken. -/
theorem take (standing : Standing records batch tickets) {ticket : Ticket}
    {result : Except Failure SavedComponent} (waiting : batch.phase = .waiting ticket)
    (settled : ticket ∈ tickets → .settled ticket result ∈ records) :
    Standing records (batch.take result) tickets := by
  cases standing with
  | waiting is confirmed =>
    rw [waiting] at is
    cases is
    have settled := settled (List.mem_append_right _ List.mem_cons_self)
    cases result with
    | ok component => exact .ready rfl (confirmed.concat settled)
    | error failure => exact .failed rfl
  | ready is | finished is | failed is =>
    rw [waiting] at is
    cases is

theorem finish (standing : Standing records batch tickets) (ready : batch.phase = .ready)
    {result : Except Failure (List SavedComponent)}
    (whole : ∀ saved, result = .ok saved → saved = batch.saved) :
    Standing records (batch.finish result) tickets := by
  have confirmed := standing.confirmed_of_ready ready
  cases result with
  | ok saved =>
    cases whole saved rfl
    exact .finished rfl confirmed
  | error failure => exact .failed rfl

theorem issue (standing : Standing records batch tickets) (ready : batch.phase = .ready)
    (ticket : Ticket) :
    Standing records { batch with phase := .waiting ticket } (tickets ++ [ticket]) :=
  .waiting rfl (standing.confirmed_of_ready ready)

end Standing

section orderly

variable {requests : List SaveRequest} {index first : Nat} {records : List Record}
  {commands : List Command} {tickets : List Ticket}

/-- The batch at this position submitted these commands under these tickets, the requests in
    order, and stands accordingly.  Tickets from `first` on are settled on these records. -/
structure Orderly (requests : List SaveRequest) (index first : Nat) (records : List Record)
    (commands : List Command) (tickets : List Ticket) (system : System) : Prop where
  once : TicketsOnce records system
  reported : ∀ entry ∈ system.results, first ≤ entry.1 → .settled entry.1 entry.2 ∈ records
  standing : ∃ batch, system.batches[index]? = some batch ∧
    batch.remaining = requests.drop batch.saved.length ∧ Standing records batch tickets
  commands : commands = List.zipWith SaveRequest.command requests tickets
  room : tickets.length ≤ requests.length
  ascending : tickets.Pairwise (· < ·)
  bounds : ∀ ticket ∈ tickets, first ≤ ticket ∧ ticket < system.nextTicket
  begun : first ≤ system.nextTicket

theorem nextTicket_le_step (once : TicketsOnce records system) (move : Move) :
    system.nextTicket ≤ (system.step move).1.nextTicket := by
  obtain ⟨_, -, -, grows, -⟩ := (turn_step system move).savers_perm once.numbered
  exact grows

namespace Orderly

theorem reported_step (orderly : Orderly requests index first records commands tickets system)
    (move : Move) : ∀ entry ∈ (system.step move).1.results, first ≤ entry.1 →
      .settled entry.1 entry.2 ∈ records ++ (system.step move).2 := by
  intro entry h recent
  rcases reports_step system move entry h with before | now
  · exact List.mem_append_left _ (orderly.reported entry before recent)
  · exact List.mem_append_right _ now

/-- A batch that submits nothing may take an answer or end. -/
theorem still (orderly : Orderly requests index first records commands tickets system)
    (move : Move) (nothing : submits? index system move = none)
    (standing : ∃ batch, (system.step move).1.batches[index]? = some batch ∧
      batch.remaining = requests.drop batch.saved.length ∧
      Standing (records ++ (system.step move).2) batch tickets) :
    Orderly requests index first (records ++ (system.step move).2)
      (commands ++ (submits? index system move).toList)
      (tickets ++ (submits? index system move).toList.filterMap Command.saver?)
      (system.step move).1 := by
  have grows := nextTicket_le_step orderly.once move
  rw [nothing, Option.toList_none, List.append_nil, List.filterMap_nil, List.append_nil]
  refine ⟨(turn_step system move).ticketsOnce orderly.once, orderly.reported_step move, standing,
    orderly.commands, orderly.room, orderly.ascending, ?_, Nat.le_trans orderly.begun grows⟩
  intro ticket h
  obtain ⟨least, most⟩ := orderly.bounds ticket h
  exact ⟨least, Nat.lt_of_lt_of_le most grows⟩

/-- The next request is the first that has no ticket yet. -/
theorem issue (orderly : Orderly requests index first records commands tickets system)
    {batch : Batch} {request : SaveRequest} {rest : List SaveRequest}
    (found : system.batches[index]? = some batch) (ready : batch.phase = .ready)
    (next : batch.remaining = request :: rest) :
    commands ++ [request.command system.nextTicket] =
        List.zipWith SaveRequest.command requests (tickets ++ [system.nextTicket]) ∧
      (tickets ++ [system.nextTicket]).length ≤ requests.length := by
  obtain ⟨batch', same, remaining, standing⟩ := orderly.standing
  cases found.symm.trans same
  have length := (standing.confirmed_of_ready ready).length
  rw [next, ← length] at remaining
  constructor
  · rw [zipWith_concat remaining.symm, ← orderly.commands]
  · have more : 0 < (requests.drop tickets.length).length := by
      rw [← remaining]
      exact Nat.succ_pos _
    rw [List.length_drop] at more
    rw [List.length_append, List.length_singleton]
    omega

/-- Behind each ticket stands the command for the request at its position. -/
theorem getElem?_commands
    (orderly : Orderly requests index first records commands tickets system) {position : Nat}
    (bound : position < tickets.length) :
    ∃ request ticket, requests[position]? = some request ∧
      commands[position]? = some (request.command ticket) := by
  have room := orderly.room
  refine ⟨requests[position], tickets[position], List.getElem?_eq_getElem (by omega), ?_⟩
  rw [orderly.commands, List.getElem?_eq_getElem (by rw [List.length_zipWith]; omega),
    List.getElem_zipWith]

theorem step (orderly : Orderly requests index first records commands tickets system)
    (move : Move) :
    Orderly requests index first (records ++ (system.step move).2)
      (commands ++ (submits? index system move).toList)
      (tickets ++ (submits? index system move).toList.filterMap Command.saver?)
      (system.step move).1 := by
  obtain ⟨batch, found, remaining, standing⟩ := orderly.standing
  rcases batch_step found move with ⟨rfl, goes⟩ | ⟨other, same⟩
  · have once := (turn_step system (.runBatch index)).ticketsOnce orderly.once
    have reported := orderly.reported_step (.runBatch index)
    have stays := orderly.still (.runBatch index)
    have here : ∀ batch' : Batch, (system.batches.set index batch')[index]? = some batch' :=
      fun batch' => List.getElem?_set_self (List.getElem?_eq_some_iff.mp found).1
    simp only [submits?, if_pos, System.step, List.append_nil] at once reported goes stays ⊢
    generalize system.runBatch index = next at once reported goes stays ⊢
    cases goes with
    | waits waiting =>
      exact stays (submitted?_eq_none (Nat.le_refl _)) ⟨batch, found, remaining, standing⟩
    | @takes ticket result waiting there =>
      refine stays (submitted?_eq_none (Nat.le_refl _)) ⟨batch.take result, here _, ?_, ?_⟩
      · cases result with
        | ok component =>
          simp only [Batch.take, remaining, List.drop_drop, List.length_append,
            List.length_singleton]
        | error failure => exact remaining
      · exact standing.take waiting fun mine =>
          orderly.reported _ there (orderly.bounds _ mine).1
    | ends ready whole =>
      exact stays (submitted?_eq_none (Nat.le_refl _))
        ⟨_, here _, remaining, standing.finish ready whole⟩
    | @issues request rest ready next online =>
      obtain ⟨same, room⟩ := orderly.issue found ready next
      rw [submitted?_eq_some rfl]
      refine ⟨once, reported, ⟨_, here _, remaining, standing.issue ready _⟩, same, room, ?_, ?_,
        Nat.le_succ_of_le orderly.begun⟩
      · refine List.pairwise_append.mpr ⟨orderly.ascending, List.pairwise_singleton _ _, ?_⟩
        intro ticket h last isLast
        cases List.mem_singleton.mp isLast
        exact (orderly.bounds ticket h).2
      · intro ticket h
        rcases List.mem_append.mp h with h | h
        · obtain ⟨least, most⟩ := orderly.bounds ticket h
          exact ⟨least, Nat.lt_succ_of_lt most⟩
        · cases List.mem_singleton.mp h
          exact ⟨orderly.begun, Nat.lt_succ_self _⟩
  · exact orderly.still move (submits?_of_ne other) ⟨batch, same, remaining, standing.mono _⟩

end Orderly

end orderly

/-! ### Runs -/

variable {settings : Settings} {credential : Option String}

/-- At any time tickets are settled once, and the results at hand are of tickets in use. -/
theorem once_run (settings : Settings) (credential : Option String) (moves : List Move) :
    TicketsOnce [] ((start settings credential).run moves).1 ∧
      ∀ entry ∈ ((start settings credential).run moves).1.results,
        entry.1 < ((start settings credential).run moves).1.nextTicket := by
  have kept : TicketsOnce ((start settings credential).run moves).2
        ((start settings credential).run moves).1 ∧
      ∀ entry ∈ ((start settings credential).run moves).1.results,
        .settled entry.1 entry.2 ∈ ((start settings credential).run moves).2 := by
    refine history_induction (P := fun history system =>
      TicketsOnce ((start settings credential).run history).2 system ∧
        ∀ entry ∈ system.results,
          .settled entry.1 entry.2 ∈ ((start settings credential).run history).2) ?_ ?_ moves
    · exact ⟨(accounted_start settings credential).tickets, by intro entry h; cases h⟩
    · rintro history move ⟨once, reported⟩
      rw [records_run_concat]
      refine ⟨(turn_step _ move).ticketsOnce once, fun entry h => ?_⟩
      rcases reports_step _ move entry h with before | now
      · exact List.mem_append_left _ (reported entry before)
      · exact List.mem_append_right _ now
  obtain ⟨once, reported⟩ := kept
  constructor
  · refine ⟨once.numbered, (List.nodup_append.mp once.once).2.1, fun ticket h => ?_⟩
    exact once.issued ticket (List.mem_append_right _ h)
  · intro entry h
    apply once.issued entry.1
    exact List.mem_append_left _ (List.mem_filterMap.mpr ⟨_, reported entry h, rfl⟩)

/-- The session in which a caller has just started a batch. -/
def begin (system : System) (requests : List SaveRequest) : System :=
  (system.step (.startBatch requests)).1

/-- The batch at this position is orderly after these moves, on the records of these moves. -/
abbrev OrderlyAfter (begun : System) (index first : Nat) (requests : List SaveRequest)
    (moves : List Move) : Prop :=
  Orderly requests index first (begun.run moves).2 (begun.submissions index moves)
    (begun.tickets index moves) (begun.run moves).1

theorem orderly_run (settings : Settings) (credential : Option String) (before : List Move)
    (requests : List SaveRequest) (moves : List Move) :
    let system := ((start settings credential).run before).1
    let begun := system.begin requests
    OrderlyAfter begun system.batches.length begun.nextTicket requests moves := by
  intro system begun
  let index := system.batches.length
  refine history_induction (P := fun history system' =>
    Orderly requests index begun.nextTicket (begun.run history).2 (begun.submissions index history)
      (begun.tickets index history) system') ?_ ?_ moves
  · obtain ⟨once, recent⟩ := once_run settings credential before
    refine ⟨⟨once.numbered, once.once, once.issued⟩, ?_, ?_, ?_, Nat.zero_le _,
      List.Pairwise.nil, ?_, Nat.le_refl _⟩
    · intro entry h least
      exact absurd least (Nat.not_le_of_lt (recent entry h))
    · refine ⟨.ofRequests requests, ?_, rfl, .ready rfl (.nil _)⟩
      exact List.getElem?_concat_length
    · exact (List.zipWith_nil_right).symm
    · intro ticket h
      cases h
  · intro history move orderly
    rw [records_run_concat, submissions, tickets, submissions, noted_concat,
      List.filterMap_append]
    exact orderly.step move

/-! ### When a batch issues, and when it has ended -/

section ended

variable {index : Nat} {batch : Batch} {begun : System} {moves : List Move}

/-- Only a batch that is ready submits anything, and then a request. -/
theorem of_submits? (found : system.batches[index]? = some batch) {command : Command}
    (submits : submits? index system move = some command) :
    batch.phase = .ready ∧
      ∃ request : SaveRequest, command = request.command system.nextTicket := by
  rcases batch_step found move with ⟨rfl, goes⟩ | ⟨other, -⟩
  · rw [submits?_runBatch] at submits
    generalize (system.step (.runBatch index)).1 = next at submits goes
    have nothing := submitted?_eq_none (Nat.le_refl system.commands.length)
    cases goes with
    | @issues request rest ready =>
      refine ⟨ready, request, ?_⟩
      rw [submitted?_eq_some rfl] at submits
      exact (Option.some.inj submits).symm
    | _ => cases nothing.symm.trans submits
  · rw [submits?_of_ne other] at submits
    cases submits

/-- What a batch has returned stays. -/
theorem returned?_step {result : Except Failure (List SavedComponent)}
    (returned : system.returned? index = some result) (move : Move) :
    (system.step move).1.returned? index = some result := by
  obtain ⟨batch, found, same⟩ := Option.bind_eq_some_iff.mp returned
  have finished := Batch.phase_of_result? same
  rcases batch_step found move with ⟨rfl, goes⟩ | ⟨-, kept⟩
  · generalize (system.step (.runBatch index)).1 = next at goes
    cases goes with
    | waits => exact returned
    | takes is | ends is | issues is =>
      rw [finished] at is
      cases is
  · rw [returned?, kept]
    exact same

theorem submits?_of_returned? {result : Except Failure (List SavedComponent)}
    (returned : system.returned? index = some result) (move : Move) :
    submits? index system move = none := by
  obtain ⟨batch, found, same⟩ := Option.bind_eq_some_iff.mp returned
  refine Option.eq_none_iff_forall_ne_some.mpr fun command submits => ?_
  rw [Batch.result?, (of_submits? found submits).1] at same
  cases same

/-- The batch is about to go on, with something left to save, and finds the client offline. -/
def FindsOffline (index : Nat) (system : System) (move : Move) : Prop :=
  move = .runBatch index ∧ system.isOnline = false ∧
    ∃ batch, system.batches[index]? = some batch ∧ batch.phase = .ready ∧ batch.remaining ≠ []

theorem returned?_of_findsOffline (finds : FindsOffline index system move) :
    ∃ result, (system.step move).1.returned? index = some result := by
  obtain ⟨rfl, offline, batch, found, ready, some⟩ := finds
  have goes := goes_runBatch found
  simp only [step]
  generalize same : system.runBatch index = next at goes
  have here : ∀ batch' : Batch, (system.batches.set index batch')[index]? = Option.some batch' :=
    fun batch' => List.getElem?_set_self (List.getElem?_eq_some_iff.mp found).1
  cases goes with
  | waits waiting => exact absurd ready waiting
  | takes waiting =>
    rw [ready] at waiting
    cases waiting
  | ends => exact ⟨_, by rw [returned?, here]; rfl⟩
  | issues _ _ online =>
    rw [offline] at online
    cases online

theorem returned?_run {result : Except Failure (List SavedComponent)}
    (returned : system.returned? index = some result) (moves : List Move) :
    (system.run moves).1.returned? index = some result := by
  induction moves generalizing system with
  | nil => exact returned
  | cons move moves ih => exact ih (returned?_step returned move)

theorem returned?_of_offline (offline : Sometime (FindsOffline index) system moves) :
    ∃ result, (system.run moves).1.returned? index = some result := by
  induction moves generalizing system with
  | nil => cases offline
  | cons move moves ih =>
    rcases offline with finds | later
    · obtain ⟨result, returned⟩ := returned?_of_findsOffline finds
      exact ⟨result, returned?_run returned moves⟩
    · exact ih later

/-- What ends a batch and lasts, keeps it from submitting anything more. -/
theorem submissions_append_of_lasting (ended : List Move → Prop)
    (lasts : ∀ {moves} move, ended moves → ended (moves ++ [move]))
    (quiet : ∀ {moves} move, ended moves → submits? index (begun.run moves).1 move = none)
    (now : ended moves) (later : List Move) :
    begun.submissions index (moves ++ later) = begun.submissions index moves := by
  induction later generalizing moves with
  | nil => rw [List.append_nil]
  | cons move later ih =>
    rw [List.append_cons, ih (lasts move now), submissions, noted_concat, quiet move now]
    exact List.append_nil _

end ended

/-- What a batch that saves these requests does in the course of a run, whatever else happens
    in it. -/
structure InTurn (begun : System) (index : Nat) (requests : List SaveRequest)
    (moves : List Move) : Prop where
  /-- The first of the requests are submitted, each once and in order. -/
  ordered : begun.submissions index moves =
    List.zipWith SaveRequest.command requests (begun.tickets index moves)
  ascending : (begun.tickets index moves).Pairwise (· < ·)
  /-- A request is issued when all earlier ones were confirmed. -/
  confirmed : ∀ {move command}, submits? index (begun.run moves).1 move = some command →
    ∀ ticket ∈ begun.tickets index moves,
      ∃ component, .settled ticket (.ok component) ∈ (begun.run moves).2
  /-- After an error nothing is issued. -/
  failed : ∀ {ticket failure}, ticket ∈ begun.tickets index moves →
    .settled ticket (.error failure) ∈ (begun.run moves).2 →
      ∀ later, begun.submissions index (moves ++ later) = begun.submissions index moves
  /-- Nor after the client was found offline. -/
  offline : Sometime (FindsOffline index) begun moves →
    ∀ later, begun.submissions index (moves ++ later) = begun.submissions index moves
  /-- What is returned is one entry for each request that was issued: its confirmation. -/
  counted : ∀ {saved}, (begun.run moves).1.returned? index = some (.ok saved) →
    Confirmed (begun.run moves).2 (begun.tickets index moves) saved

section inTurn

variable {requests : List SaveRequest} {index first : Nat} {begun : System} {moves : List Move}

/-- A ticket that was settled by an error was not confirmed. -/
theorem Orderly.submits?_of_failed {records : List Record} {commands : List Command}
    {tickets : List Ticket} {ticket : Ticket} {failure : Failure}
    (orderly : Orderly requests index first records commands tickets system)
    (mine : ticket ∈ tickets) (settled : .settled ticket (.error failure) ∈ records)
    (move : Move) : submits? index system move = none := by
  obtain ⟨batch, found, -, standing⟩ := orderly.standing
  refine Option.eq_none_iff_forall_ne_some.mpr fun command submits => ?_
  have confirmed := standing.confirmed_of_ready (of_submits? found submits).1
  obtain ⟨component, settled'⟩ := confirmed.exists_of_mem mine
  have once := (List.nodup_append.mp orderly.once.once).1
  cases eq_of_settled once settled settled'

theorem inTurn_of_orderly
    (orderly : ∀ moves, OrderlyAfter begun index first requests moves)
    (moves : List Move) : InTurn begun index requests moves := by
  have now := orderly moves
  obtain ⟨batch, found, -, standing⟩ := now.standing
  refine ⟨now.commands, now.ascending, ?_, ?_, ?_, ?_⟩
  · intro move command submits ticket mine
    exact (standing.confirmed_of_ready (of_submits? found submits).1).exists_of_mem mine
  · intro ticket failure mine settled later
    refine submissions_append_of_lasting (fun moves => ticket ∈ begun.tickets index moves ∧
      .settled ticket (.error failure) ∈ (begun.run moves).2) ?_ ?_ ⟨mine, settled⟩ later
    · rintro moves move ⟨mine, settled⟩
      rw [records_run_concat, tickets, submissions, noted_concat, List.filterMap_append]
      exact ⟨List.mem_append_left _ mine, List.mem_append_left _ settled⟩
    · rintro moves move ⟨mine, settled⟩
      exact (orderly moves).submits?_of_failed mine settled move
  · intro offline later
    refine submissions_append_of_lasting (fun moves =>
      ∃ result, (begun.run moves).1.returned? index = some result) ?_ ?_
      (returned?_of_offline offline) later
    · rintro moves move ⟨result, returned⟩
      rw [run_concat]
      exact ⟨result, returned?_step returned move⟩
    · rintro moves move ⟨result, returned⟩
      exact submits?_of_returned? returned move
  · intro saved returned
    rw [returned?, found] at returned
    exact standing.confirmed_of_finished (Batch.phase_of_result? returned)

end inTurn

end System
end Liveboard.Session
