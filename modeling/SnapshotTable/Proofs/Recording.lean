import SnapshotTable.Proofs.Run

/-!
Recorded reads, which no call asks for. A table that records its reads does what the same table
without them does: forgetting the reads commutes with every call. What is recorded since bind is,
in order, what the reads that succeeded asked for, as the transaction makes it.
-/

namespace SnapshotTable

set_option autoImplicit false

namespace PendingLog

def writes (log : PendingLog) : PendingLog := log.filter (·.isWrite)

variable (log more : PendingLog)

theorem writes_append : writes (log ++ more) = writes log ++ writes more := List.filter_append ..

theorem writes_reverse : writes log.reverse = (writes log).reverse := List.filter_reverse ..

theorem writeCount_writes : (writes log).writeCount = log.writeCount := by
  simp [writes, writeCount, List.countP_filter]

theorem changedRows_writes : (writes log).changedRows = log.changedRows := by
  simp [writes, changedRows, List.filter_filter]

theorem writes_gets (requests : List Get) : writes (requests.map .get) = [] := by
  simp [writes, PendingEntry.isWrite]

end PendingLog

namespace Table

/-- The table that records no reads and has forgotten those in its log. -/
def withoutReads (table : Table) : Table where
  config := { table.config with recordReads := false }
  binding := table.binding.map fun binding => { binding with log := binding.log.writes }

variable (table : Table)

theorem bound_withoutReads : table.withoutReads.bound = table.bound := by
  obtain ⟨config, binding⟩ := table
  cases binding <;> rfl

theorem extendLog_withoutReads (entries : PendingLog) :
    (table.extendLog entries).withoutReads = table.withoutReads.extendLog entries.writes := by
  obtain ⟨config, binding⟩ := table
  cases binding with
  | none => rfl
  | some binding => simp [extendLog, withoutReads, PendingLog.writes_append]

theorem recordReads_withoutReads (requests : List Get) :
    (table.recordReads requests).withoutReads = table.withoutReads := by
  rw [recordReads]
  split
  · rw [extendLog_withoutReads, PendingLog.writes_gets, extendLog_nil]
  · rfl

theorem made_withoutReads {α ρ : Type} (make : Transaction → α → Except CodecError ρ)
    (request : α) : table.withoutReads.made make request = table.made make request := by
  rw [made, made, bound_withoutReads]

theorem state_withoutReads : table.withoutReads.state = table.state := by
  obtain ⟨config, binding⟩ := table
  cases binding with
  | none => rfl
  | some binding => simp [state, withoutReads, PendingLog.writeCount_writes]

theorem log_withoutReads : table.withoutReads.log = table.log.writes := by
  obtain ⟨config, binding⟩ := table
  cases binding <;> rfl

theorem pendingCount_withoutReads : table.withoutReads.pendingCount = table.pendingCount := by
  rw [pendingCount, log_withoutReads, PendingLog.writeCount_writes, pendingCount]

theorem changedRows_withoutReads : table.withoutReads.changedRows = table.changedRows := by
  rw [changedRows, log_withoutReads, PendingLog.changedRows_writes, changedRows]

theorem bind_withoutReads (tx : Transaction) :
    table.withoutReads.bind tx = ((table.bind tx).1, (table.bind tx).2.withoutReads) := by
  obtain ⟨config, binding⟩ := table
  cases binding with
  | some binding => rfl
  | none =>
    simp only [bind, withoutReads, Option.map_none]
    split <;> rfl

section Store

variable {σ : Type}

/-- What an outcome is for the table without reads. -/
def forgetReads {α : Type} (outcome : α × Table × σ) : α × Table × σ :=
  (outcome.1, outcome.2.1.withoutReads, outcome.2.2)

theorem reading_withoutReads {ρ α : Type} (request : Except TableError ρ) (gets : ρ → List Get)
    (perform : ρ → σ → Except StoreError α × σ) (store : σ) :
    table.withoutReads.reading request gets perform store =
      forgetReads (table.reading request gets perform store) := by
  cases request with
  | error error => rfl
  | ok request =>
    simp only [reading]
    split
    · rfl
    · simp only [forgetReads, recordReads_withoutReads]
      rfl

variable [CellStore σ] (store : σ)

theorem prepare_withoutReads (mutation : Mutation) :
    table.withoutReads.prepare mutation store = table.prepare mutation store := by
  rw [prepare, prepare, bound_withoutReads]
  rfl

theorem prepareAll_withoutReads (mutations : List Mutation) :
    table.withoutReads.prepareAll mutations store = table.prepareAll mutations store := by
  induction mutations generalizing store with
  | nil => rfl
  | cons mutation rest ih => simp only [prepareAll, prepare_withoutReads, ih]

theorem isWrite_of_prepare {mutation : Mutation} {entry : PendingEntry}
    (prepared : (table.prepare mutation store).1 = .ok entry) : entry.isWrite := by
  rw [prepare] at prepared
  split at prepared
  · cases prepared
  · cases mutation with
    | put request =>
      simp only [preparePut] at prepared
      split at prepared
      · cases prepared
      · rename_i tx _ _
        cases stamped : tx.stampPut request with
        | error error =>
          rw [stamped] at prepared
          cases prepared
        | ok put =>
          rw [stamped] at prepared
          cases prepared
          rfl
    | delete request =>
      simp only [prepareDelete] at prepared
      split at prepared
      · cases prepared
      · split at prepared
        · cases prepared
        · split at prepared
          · cases prepared
          · cases prepared
            rfl

theorem isWrite_of_prepareAll {mutations : List Mutation} {entries : List PendingEntry}
    (prepared : (table.prepareAll mutations store).1 = .ok entries) :
    ∀ entry ∈ entries, entry.isWrite := by
  induction mutations generalizing store entries with
  | nil =>
    cases prepared
    exact List.forall_mem_nil _
  | cons mutation rest ih =>
    rw [prepareAll] at prepared
    split at prepared
    · cases prepared
    · rename_i entry next eq
      have first : entry.isWrite := table.isWrite_of_prepare store (by rw [eq])
      split at prepared
      · cases prepared
      · rename_i others last eq'
        cases prepared
        exact List.forall_mem_cons.2 ⟨first, ih next (by rw [eq'])⟩

theorem write_withoutReads (mutations : List Mutation) :
    table.withoutReads.write mutations store = forgetReads (table.write mutations store) := by
  rw [write, write, prepareAll_withoutReads]
  split
  · rfl
  · rename_i entries next eq
    have all : PendingLog.writes entries = entries :=
      List.filter_eq_self.2 (table.isWrite_of_prepareAll store (by rw [eq]))
    simp only [forgetReads, extendLog_withoutReads, all]

theorem replay_writes (log : PendingLog) : replay log.writes store = replay log store := by
  induction log generalizing store with
  | nil => rfl
  | cons entry rest ih =>
    cases entry with
    | get request => exact ih store
    | put request =>
      change replay (.put request :: PendingLog.writes rest) store = _
      simp only [replay, ih]
    | delete request preImage undoImage =>
      change replay (.delete request preImage undoImage :: PendingLog.writes rest) store = _
      simp only [replay, ih]

theorem compensateAll_writes (tx : Transaction) (log : PendingLog) :
    compensateAll tx log.writes store = compensateAll tx log store := by
  induction log generalizing store with
  | nil => rfl
  | cons entry rest ih =>
    cases entry with
    | get request => exact ih store
    | put request =>
      change compensateAll tx (.put request :: PendingLog.writes rest) store = _
      simp only [compensateAll, ih]
    | delete request preImage undoImage =>
      change compensateAll tx (.delete request preImage undoImage :: PendingLog.writes rest) store =
        _
      simp only [compensateAll, ih]

theorem commit_withoutReads : table.withoutReads.commit store = table.commit store := by
  obtain ⟨config, binding⟩ := table
  cases binding with
  | none => rfl
  | some binding => simp only [commit, withoutReads, Option.map_some, replay_writes]

theorem rollback_withoutReads :
    table.withoutReads.rollback store = forgetReads (table.rollback store) := by
  obtain ⟨config, binding⟩ := table
  cases binding with
  | none => rfl
  | some binding =>
    simp only [rollback, withoutReads, Option.map_some, ← PendingLog.writes_reverse,
      compensateAll_writes]
    rfl

/-- Forgetting reads commutes with every call: it does the same to the store and has the same
answer. -/
theorem perform_withoutReads (call : TableCall) :
    table.withoutReads.perform store call = forgetReads (table.perform store call) := by
  cases call with
  | bind tx => simp only [perform, bind_withoutReads, forgetReads]
  | get | holds | getMany | scan | scanFamily | scanColumn =>
    simp only [perform, get, holds, getMany, scanSelected, scan, made_withoutReads,
      reading_withoutReads]
  | put | putMany | delete | deleteMany | mutateRow =>
    simp only [perform, put, putMany, delete, deleteMany, mutateRow, write_withoutReads]
  | checkAndPut | checkAndDelete | append | increment | incrementColumn => rfl
  | allowNonTransactional | postCommit => rfl
  | changeDescriptor | changes =>
    simp only [perform, changes, changeDescriptor, bound_withoutReads, forgetReads]
  | commit => simp only [perform, commit_withoutReads, forgetReads]
  | rollback => exact table.rollback_withoutReads store

end Store

end Table

def TableCall.asked : TableCall → List Get
  | get request => [request]
  | holds request => [request]
  | getMany requests => requests
  | _ => []

def TableCall.releases : TableCall → Bool
  | postCommit | rollback => true
  | _ => false

namespace Table

variable {σ : Type}

def answered [CellStore σ] (table : Table) (store : σ) (call : TableCall) : List Get :=
  if (table.perform store call).1.isOk then call.asked else []

/-- The table is still bound to the transaction, and has noted reads that it was to note. -/
structure Notes (table next : Table) (tx : Transaction) (asked : List Get) : Prop where
  bound : next.transaction? = some tx
  record : next.config.recordReads = table.config.recordReads
  noted : ∃ gets, asked.mapM tx.snapshotGet = .ok gets ∧
    next.readSet = table.readSet ++ if table.config.recordReads then gets else []

section Noting

variable {table : Table} {tx : Transaction}

theorem Notes.of_log (bound : table.transaction? = some tx) {next : Table}
    (same : next.binding = table.binding)
    (record : next.config.recordReads = table.config.recordReads) : table.Notes next tx [] where
  bound := by rw [transaction?, same, ← transaction?, bound]
  record := record
  noted := ⟨[], rfl, by rw [readSet, log, same, ite_self, List.append_nil]; rfl⟩

theorem Notes.trans {next last : Table} {asked more : List Get} (first : table.Notes next tx asked)
    (second : next.Notes last tx more) : table.Notes last tx (asked ++ more) := by
  obtain ⟨gets, made, reads⟩ := first.noted
  obtain ⟨others, made', reads'⟩ := second.noted
  refine ⟨second.bound, second.record.trans first.record, gets ++ others, ?_, ?_⟩
  · rw [List.mapM_append, made, made']
    rfl
  · rw [reads', reads, first.record]
    split <;> simp

theorem Notes.of_entries (bound : table.transaction? = some tx) {entries : PendingLog}
    {asked gets : List Get} (stamped : asked.mapM tx.snapshotGet = .ok gets)
    (reads : entries.reads = if table.config.recordReads then gets else []) :
    table.Notes (table.extendLog entries) tx asked := by
  obtain ⟨binding, here, rfl⟩ := Option.map_eq_some_iff.1 bound
  refine ⟨by simp [transaction?, extendLog, here], rfl, gets, stamped, ?_⟩
  simp [readSet, log, extendLog, here, PendingLog.reads, ← reads]

theorem Notes.of_writes (bound : table.transaction? = some tx) {entries : PendingLog}
    (writes : ∀ entry ∈ entries, entry.isWrite) : table.Notes (table.extendLog entries) tx [] := by
  have nothing : ([] : List Get).mapM tx.snapshotGet = .ok [] := rfl
  refine .of_entries bound nothing ?_
  rw [ite_self, PendingLog.reads, List.filterMap_eq_nil_iff]
  intro entry mem
  have write := writes entry mem
  cases entry with
  | get request => cases write
  | put request => rfl
  | delete request preImage undoImage => rfl

theorem Notes.of_gets (bound : table.transaction? = some tx) {asked gets : List Get}
    (stamped : asked.mapM tx.snapshotGet = .ok gets) :
    table.Notes (table.recordReads gets) tx asked := by
  have reads : PendingLog.reads (gets.map .get) = gets := by
    simp [PendingLog.reads, List.filterMap_map, PendingEntry.read?]
  rw [recordReads]
  split
  · rename_i record
    exact .of_entries bound stamped (by rw [reads, if_pos record])
  · rename_i silent
    have noted : table.Notes (table.extendLog []) tx asked :=
      .of_entries bound stamped (by rw [if_neg silent]; rfl)
    rwa [extendLog_nil] at noted

theorem reading_outcome {ρ α β : Type} (bound : table.transaction? = some tx)
    (make : Transaction → β → Except CodecError ρ) (request : β) (gets : ρ → List Get)
    (perform : ρ → σ → Except StoreError α × σ) (store : σ) :
    let outcome := table.reading (table.made make request) gets perform store
    (∃ error, outcome.1 = .error error ∧ outcome.2.1 = table) ∨
      ∃ stamped reply, make tx request = .ok stamped ∧ outcome.1 = .ok reply ∧
        outcome.2.1 = table.recordReads (gets stamped) := by
  intro outcome
  obtain ⟨⟨own, log⟩, here, rfl⟩ := Option.map_eq_some_iff.1 bound
  have same : outcome =
      table.reading ((make own request).mapError .codec) gets perform store := by
    rw [← made_of_bound here]
  rw [same]
  cases made : make own request with
  | error error => exact .inl ⟨.codec error, rfl, rfl⟩
  | ok stamped =>
    simp only [Except.mapError, Table.reading]
    split
    · exact .inl ⟨_, rfl, rfl⟩
    · exact .inr ⟨stamped, _, rfl, rfl, rfl⟩

theorem Notes.reading {ρ α β : Type} (bound : table.transaction? = some tx) {asked : List Get}
    {make : Transaction → β → Except CodecError ρ} {request : β} {gets : ρ → List Get}
    (asks : ∀ stamped, make tx request = .ok stamped →
      asked.mapM tx.snapshotGet = .ok (gets stamped))
    (perform : ρ → σ → Except StoreError α × σ) (store : σ) :
    table.Notes (table.reading (table.made make request) gets perform store).2.1 tx
      (if (table.reading (table.made make request) gets perform store).1.isOk then asked
        else []) := by
  rcases reading_outcome bound make request gets perform store with
    ⟨error, failed, same⟩ | ⟨stamped, reply, made, done, same⟩
  · rw [failed, same]
    exact .of_log bound rfl rfl
  · rw [done, same]
    exact .of_gets bound (asks stamped made)

theorem Notes.write [CellStore σ] (bound : table.transaction? = some tx)
    (mutations : List Mutation) (store : σ) :
    table.Notes (table.write mutations store).2.1 tx [] := by
  rw [Table.write]
  split
  · exact .of_log bound rfl rfl
  · rename_i entries next eq
    exact .of_writes bound (table.isWrite_of_prepareAll store (by rw [eq]))

theorem notes_perform [CellStore σ] (bound : table.transaction? = some tx)
    {call : TableCall} (held : call.releases = false) (store : σ) :
    table.Notes (table.perform store call).2.1 tx (table.answered store call) := by
  have one : ∀ request stamped, tx.snapshotGet request = .ok stamped →
      [request].mapM tx.snapshotGet = .ok [stamped] := by
    intro request stamped made
    rw [List.mapM_cons, made]
    rfl
  have nothing : ([] : List Get).mapM tx.snapshotGet = .ok [] := rfl
  have silent : ∀ call : TableCall, call.asked = [] → table.answered store call = [] :=
    fun call none => by rw [answered, none, ite_self]
  cases call with
  | get request => exact .reading bound (one request) CellStore.get store
  | holds request => exact .reading bound (one request) CellStore.holds store
  | getMany requests => exact .reading bound (fun _ made => made) CellStore.getMany store
  | scan | scanFamily | scanColumn =>
    exact .reading bound (fun _ _ => nothing) CellStore.scan store
  | put | putMany | delete | deleteMany | mutateRow =>
    rw [silent _ rfl]
    exact .write bound _ store
  | postCommit | rollback => cases held
  | bind other =>
    rw [silent _ rfl, perform, bind_of_bound bound]
    exact .of_log bound rfl rfl
  | _ =>
    rw [silent _ rfl]
    exact .of_log bound rfl rfl

end Noting

theorem config_reading {ρ α : Type} (table : Table) (request : Except TableError ρ)
    (gets : ρ → List Get) (perform : ρ → σ → Except StoreError α × σ) (store : σ) :
    (table.reading request gets perform store).2.1.config = table.config := by
  cases request with
  | error error => rfl
  | ok request =>
    simp only [reading]
    split
    · rfl
    · rw [recordReads]
      split <;> rfl

theorem record_perform [CellStore σ] (table : Table) (store : σ) (call : TableCall) :
    (table.perform store call).2.1.config.recordReads = table.config.recordReads := by
  have reads : ∀ {ρ α : Type} (request : Except TableError ρ) (gets : ρ → List Get)
      (perform : ρ → σ → Except StoreError α × σ),
      (table.reading request gets perform store).2.1.config.recordReads =
        table.config.recordReads :=
    fun request gets perform => by rw [config_reading]
  have writes : ∀ mutations,
      (table.write mutations store).2.1.config.recordReads = table.config.recordReads := by
    intro mutations
    rw [write]
    split <;> rfl
  cases call with
  | bind tx =>
    simp only [perform, bind]
    split
    · rfl
    · split <;> rfl
  | get | holds | getMany | scan | scanFamily | scanColumn => exact reads ..
  | put | putMany | delete | deleteMany | mutateRow => exact writes _
  | rollback =>
    simp only [perform, rollback]
    split <;> rfl
  | _ => rfl

end Table

structure CallResult where
  call : TableCall
  result : Except TableError call.Reply

namespace Step

def results (site : Site) : Step → List CallResult
  | call made => [⟨made, (site.1.perform site.2 made).1⟩]
  | set _ => []

def answered (site : Site) : Step → List Get
  | call made => site.1.answered site.2 made
  | set _ => []

def releases : Step → Bool
  | call made => made.releases
  | set _ => false

theorem run_withoutReads (site : Site) (step : Step) :
    step.run (site.1.withoutReads, site.2) =
      ((step.run site).1.withoutReads, (step.run site).2) := by
  cases step with
  | call made => exact congrArg Prod.snd (site.1.perform_withoutReads site.2 made)
  | set setting => rfl

theorem results_withoutReads (site : Site) (step : Step) :
    step.results (site.1.withoutReads, site.2) = step.results site := by
  cases step with
  | call made =>
    have same := congrArg Prod.fst (site.1.perform_withoutReads site.2 made)
    exact congrArg (fun result => [(⟨made, result⟩ : CallResult)]) same
  | set setting => rfl

theorem notes_run {site : Site} {tx : Transaction} (bound : site.1.transaction? = some tx)
    {step : Step} (held : step.releases = false) :
    site.1.Notes (step.run site).1 tx (step.answered site) := by
  cases step with
  | call made => exact Table.notes_perform bound held site.2
  | set setting => exact .of_log bound rfl rfl

end Step

namespace Site

def results (site : Site) : List Step → List CallResult
  | [] => []
  | step :: rest => step.results site ++ results (step.run site) rest

def answered (site : Site) : List Step → List Get
  | [] => []
  | step :: rest => step.answered site ++ answered (step.run site) rest

/-- A run on the table without reads has the same results, does the same to the store, and leaves the
same table but for the reads. -/
theorem run_withoutReads (site : Site) (steps : List Step) :
    results (site.1.withoutReads, site.2) steps = site.results steps ∧
      run (site.1.withoutReads, site.2) steps =
        ((site.run steps).1.withoutReads, (site.run steps).2) := by
  induction steps generalizing site with
  | nil => exact ⟨rfl, rfl⟩
  | cons step rest ih =>
    obtain ⟨same, last⟩ := ih (step.run site)
    rw [← step.run_withoutReads] at same last
    refine ⟨?_, last⟩
    simp only [results, step.results_withoutReads, same]

theorem record_run (site : Site) (steps : List Step) :
    (site.run steps).1.config.recordReads = site.1.config.recordReads := by
  induction steps generalizing site with
  | nil => rfl
  | cons step rest ih =>
    refine (ih (step.run site)).trans ?_
    cases step with
    | call made => exact site.1.record_perform site.2 made
    | set setting => rfl

theorem notes_run {site : Site} {tx : Transaction} (bound : site.1.transaction? = some tx)
    {steps : List Step} (held : ∀ step ∈ steps, step.releases = false) :
    site.1.Notes (site.run steps).1 tx (site.answered steps) := by
  induction steps generalizing site with
  | nil => exact .of_log bound rfl rfl
  | cons step rest ih =>
    obtain ⟨first, later⟩ := List.forall_mem_cons.1 held
    have here := Step.notes_run bound first
    exact here.trans (ih here.bound later)

theorem readSet_since_bind (site : Site) {earlier later : List Step} {tx : Transaction}
    (binds : ((site.run earlier).1.bind tx).1 = .ok ())
    (held : ∀ step ∈ later, step.releases = false) : ∃ gets,
      ((site.run (earlier ++ [.call (.bind tx)])).answered later).mapM tx.snapshotGet =
          .ok gets ∧
        (site.run (earlier ++ .call (.bind tx) :: later)).1.readSet =
          if site.1.config.recordReads then gets else [] := by
  have started : site.run (earlier ++ [.call (.bind tx)]) =
      (((site.run earlier).1.bind tx).2, (site.run earlier).2) := site.run_append ..
  obtain ⟨_, _, fresh⟩ := Table.bind_ok (Prod.ext binds rfl :
    (site.run earlier).1.bind tx = (.ok (), ((site.run earlier).1.bind tx).2))
  have bound : (site.run (earlier ++ [.call (.bind tx)])).1.transaction? = some tx := by
    rw [started, fresh]
    rfl
  have empty : (site.run (earlier ++ [.call (.bind tx)])).1.readSet = [] := by
    rw [started, fresh]
    rfl
  obtain ⟨gets, made, reads⟩ := (notes_run bound held).noted
  rw [empty, List.nil_append, record_run, ← run_append, List.append_assoc] at reads
  exact ⟨gets, made, reads⟩

end Site

namespace Table

def recording (table : Table) (record : Bool) : Table :=
  { table with config := { table.config with recordReads := record } }

end Table

/-- Take two tables that differ only in whether they record reads, over one store behind a layer that
may make any calls fail. The same run on both has the same results, makes the same calls to the store
and leaves the same cells, and the tables have the same state, the same number of pending writes and
the same changed rows. Once a transaction is bound, and until it is released, the read set of the
one is what its transaction makes of the gets of the reads that have succeeded, in order, and the
read set of the other is empty. -/
theorem recording_reads_is_transparent (table : Table) (store : FaultyStore MemoryStore)
    (steps : List Step) :
    let on : Site := (table.recording true, store)
    let off : Site := (table.recording false, store)
    on.results steps = off.results steps ∧ (on.run steps).2 = (off.run steps).2 ∧
      (on.run steps).1.state = (off.run steps).1.state ∧
        (on.run steps).1.pendingCount = (off.run steps).1.pendingCount ∧
          (on.run steps).1.changedRows = (off.run steps).1.changedRows ∧
      ∀ earlier tx later, steps = earlier ++ .call (.bind tx) :: later →
        ((on.run earlier).1.bind tx).1 = .ok () → (∀ step ∈ later, step.releases = false) →
          ((on.run (earlier ++ [.call (.bind tx)])).answered later).mapM tx.snapshotGet =
              .ok (on.run steps).1.readSet ∧
            (off.run steps).1.readSet = [] := by
  intro on off
  have alike : ∀ steps, on.results steps = off.results steps ∧
      (on.run steps).1.withoutReads = (off.run steps).1.withoutReads ∧
        (on.run steps).2 = (off.run steps).2 := by
    intro steps
    obtain ⟨results, last⟩ := on.run_withoutReads steps
    obtain ⟨results', last'⟩ := off.run_withoutReads steps
    obtain ⟨tables, stores⟩ := Prod.mk.inj (last.symm.trans last')
    exact ⟨results.symm.trans results', tables, stores⟩
  obtain ⟨results, tables, stores⟩ := alike steps
  refine ⟨results, stores, ?_, ?_, ?_, ?_⟩
  · rw [← Table.state_withoutReads, tables, Table.state_withoutReads]
  · rw [← Table.pendingCount_withoutReads, tables, Table.pendingCount_withoutReads]
  · rw [← Table.changedRows_withoutReads, tables, Table.changedRows_withoutReads]
  · rintro earlier tx later rfl binds held
    have binds' : ((off.run earlier).1.bind tx).1 = .ok () := by
      have same := congrArg Prod.fst ((off.run earlier).1.bind_withoutReads tx)
      rw [← (alike earlier).2.1, Table.bind_withoutReads] at same
      exact same.symm.trans binds
    obtain ⟨gets, made, noted⟩ := on.readSet_since_bind binds held
    obtain ⟨_, _, nothing⟩ := off.readSet_since_bind binds' held
    exact ⟨noted ▸ made, nothing⟩

/-- A read that fails is not among the recorded ones, and a commit that fails at its first write ends
alike on both tables. -/
theorem recording_reads_is_transparent_past_failures :
    let tx := Transaction.new ⟨1⟩ ⟨2⟩ []
    let request (row : String) : Get := { row := Bytes.ofText row }
    let put : Put := { row := Bytes.ofText "a", cells := [⟨Sample.column, ⟨1⟩, [7]⟩] }
    let later : List Step := [.call (.get (request "a")), .set (.failReads true),
      .call (.get (request "b")), .set (.failReads false),
      .call (.getMany [request "c", request "b"]), .call (.put put), .set (.failWrite 0),
      .call .commit, .call (.holds (request "a"))]
    let store : FaultyStore MemoryStore :=
      { inner := Sample.store [{ row := "a", version := 1, value := [1] }] }
    let on : Site := (({} : Table).recording true, store)
    let off : Site := (({} : Table).recording false, store)
    let steps : List Step := .call (.bind tx) :: later
    on.results steps = off.results steps ∧ (on.run steps).2 = (off.run steps).2 ∧
      ([request "a", request "c", request "b", request "a"].mapM tx.snapshotGet =
        .ok (on.run steps).1.readSet) ∧ (off.run steps).1.readSet = [] ∧
      (on.run steps).1.pendingCount = 1 ∧ (on.run steps).2.writes.length = 1 := by
  intro tx request put later store on off steps
  obtain ⟨results, stores, _, _, _, reads⟩ := recording_reads_is_transparent {} store steps
  have binds : ((on.run []).1.bind tx).1 = .ok () := by decide +kernel
  have held : ∀ step ∈ later, step.releases = false := by decide +kernel
  have answered : (on.run ([] ++ [.call (.bind tx)])).answered later =
      [request "a", request "c", request "b", request "a"] := by decide +kernel
  obtain ⟨recorded, nothing⟩ := reads [] tx later rfl binds held
  rw [answered] at recorded
  exact ⟨results, stores, recorded, nothing, by decide +kernel, by decide +kernel⟩

end SnapshotTable
