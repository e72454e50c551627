import Mathlib.Data.List.Forall2
import SnapshotTable.Proofs.Ending
import SnapshotTable.Proofs.Refusal

/-!
What the calls of a bound table do while its transaction runs. A read leaves the memory store alone
and at most notes itself in the log; a write puts the prepared mutations into the log, all or none;
and only commit sends anything to the store.
-/

namespace SnapshotTable

set_option autoImplicit false

variable {σ : Type} [CellStore σ] [MemoryLayer σ]

namespace TableCall

def mutations : TableCall → List Mutation
  | put request => [.put request]
  | putMany requests => requests.map .put
  | delete request => [.delete request]
  | deleteMany requests => requests.map .delete
  | mutateRow request => request.mutations
  | _ => []

/-- The calls that a transaction is made of: reads, writes and attempts to commit. -/
def isInside (call : TableCall) : Bool := call.isTransactional && decide (call ≠ .rollback)

end TableCall

namespace Table

theorem memory_prepare (table : Table) (mutation : Mutation) (store : σ) :
    memory (table.prepare mutation store).2 = memory store := by
  rw [prepare]
  split
  · rfl
  · cases mutation with
    | put request => rfl
    | delete request =>
      simp only [prepareDelete]
      split
      · rfl
      · rename_i read _
        have kept := MemoryLayer.memory_get read store
        split
        · rename_i eq
          rwa [eq] at kept
        · rename_i eq
          rw [eq] at kept
          split <;> exact kept

theorem prepare_ok {table : Table} {tx : Transaction} {mutation : Mutation} {store : σ}
    {entry : PendingEntry} (bound : table.bound = .ok tx)
    (prepared : (table.prepare mutation store).1 = .ok entry) :
    Prepared tx table.config.preImageMaxVersions (memory store) mutation entry := by
  simp only [prepare, bound] at prepared
  cases mutation with
  | put request =>
    simp only [preparePut] at prepared
    split at prepared
    · cases prepared
    · rename_i some
      cases made : tx.stampPut request with
      | error error =>
        rw [made] at prepared
        cases prepared
      | ok stamped =>
        rw [made] at prepared
        cases prepared
        exact .put (by simpa [Put.isEmpty] using some) made
  | delete request =>
    simp only [prepareDelete] at prepared
    split at prepared
    · cases prepared
    · rename_i read captured
      split at prepared
      · cases prepared
      · rename_i image next eq
        have here : image = (memory store).get read := MemoryLayer.get_ok (by rw [eq])
        split at prepared
        · cases prepared
        · rename_i stamped stamp
          cases prepared
          rw [here]
          exact .delete captured stamp

theorem memory_prepareAll (table : Table) (mutations : List Mutation) (store : σ) :
    memory (table.prepareAll mutations store).2 = memory store := by
  induction mutations generalizing store with
  | nil => rfl
  | cons mutation rest ih =>
    have kept := table.memory_prepare mutation store
    rw [prepareAll]
    split
    · rename_i eq
      rwa [eq] at kept
    · rename_i next eq
      have later := ih next
      rw [eq] at kept
      split <;> (rename_i eq'; rw [eq'] at later; exact later.trans kept)

theorem prepareAll_ok {table : Table} {tx : Transaction} {mutations : List Mutation} {store : σ}
    {entries : List PendingEntry} (bound : table.bound = .ok tx)
    (prepared : (table.prepareAll mutations store).1 = .ok entries) :
    List.Forall₂ (Prepared tx table.config.preImageMaxVersions (memory store)) mutations
      entries := by
  induction mutations generalizing store entries with
  | nil =>
    cases prepared
    exact .nil
  | cons mutation rest ih =>
    rw [prepareAll] at prepared
    split at prepared
    · cases prepared
    · rename_i entry next eq
      have first := prepare_ok bound (by rw [eq] : (table.prepare mutation store).1 = .ok entry)
      have kept := table.memory_prepare mutation store
      rw [eq] at kept
      split at prepared
      · cases prepared
      · rename_i others last eq'
        cases prepared
        exact .cons first (kept ▸ ih (by rw [eq']))

theorem memory_write (table : Table) (mutations : List Mutation) (store : σ) :
    memory (table.write mutations store).2.2 = memory store := by
  have kept := table.memory_prepareAll mutations store
  rw [write]
  split <;> (rename_i eq; rwa [eq] at kept)

theorem reading_cases {ρ α : Type} (table : Table) (request : Except TableError ρ)
    (gets : ρ → List Get) {perform : ρ → σ → Except StoreError α × σ}
    (keeps : ∀ request store, memory (perform request store).2 = memory store) (store : σ) :
    memory (table.reading request gets perform store).2.2 = memory store ∧
      ∃ noted : List Get, (table.reading request gets perform store).2.1 =
        table.extendLog (noted.map .get) := by
  have nothing : ∃ noted : List Get, table = table.extendLog (noted.map .get) :=
    ⟨[], table.extendLog_nil.symm⟩
  cases request with
  | error error => exact ⟨rfl, nothing⟩
  | ok made =>
    have kept := keeps made store
    simp only [reading]
    split
    · rename_i eq
      rw [eq] at kept
      exact ⟨kept, nothing⟩
    · rename_i eq
      rw [eq] at kept
      refine ⟨kept, ?_⟩
      rw [recordReads]
      split
      · exact ⟨_, rfl⟩
      · exact nothing

theorem write_cases {table : Table} {tx : Transaction} (bound : table.bound = .ok tx)
    (mutations : List Mutation) (store : σ) : ∃ entries,
      (table.write mutations store).2.1 = table.extendLog entries ∧
        List.Forall₂ (Prepared tx table.config.preImageMaxVersions (memory store))
          (if (table.write mutations store).1.isOk then mutations else []) entries := by
  rw [write]
  split
  · exact ⟨[], table.extendLog_nil.symm, .nil⟩
  · rename_i entries next eq
    exact ⟨entries, rfl, prepareAll_ok bound (congrArg Prod.fst eq)⟩

end Table

/-- The writes that a call puts into the log: all that it asks for if it succeeds, else none. -/
def TableCall.accepted (call : TableCall) (table : Table) (store : σ) : List Mutation :=
  if (table.perform store call).1.isOk then call.mutations else []

theorem forall_of_forall₂ {α β : Type} {related : α → β → Prop} {property : β → Prop}
    (gives : ∀ input output, related input output → property output) {inputs : List α}
    {outputs : List β} (all : List.Forall₂ related inputs outputs) :
    ∀ output ∈ outputs, property output := by
  induction all with
  | nil => simp
  | cons first _ ih => exact List.forall_mem_cons.2 ⟨gives _ _ first, ih⟩

/-- What one call adds to the log: reads that were asked to be recorded, or prepared writes. -/
inductive Noted (tx : Transaction) (maxVersions : Nat) (store : MemoryStore) :
    List Mutation → List PendingEntry → Prop
  | reads (requests : List Get) : Noted tx maxVersions store [] (requests.map .get)
  | writes {mutations : List Mutation} {entries : List PendingEntry} :
    List.Forall₂ (Prepared tx maxVersions store) mutations entries →
      Noted tx maxVersions store mutations entries

theorem Noted.forall_entries {tx : Transaction} {maxVersions : Nat} {store : MemoryStore}
    {mutations : List Mutation} {entries : List PendingEntry} {property : PendingEntry → Prop}
    (noted : Noted tx maxVersions store mutations entries)
    (reads : ∀ request, property (.get request))
    (writes : ∀ mutation entry, Prepared tx maxVersions store mutation entry → property entry) :
    ∀ entry ∈ entries, property entry := by
  cases noted with
  | reads requests =>
    intro entry mem
    obtain ⟨request, _, rfl⟩ := List.mem_map.1 mem
    exact reads request
  | writes prepared => exact forall_of_forall₂ writes prepared

namespace Table

/-- A call inside a transaction adds to the log and leaves the memory store alone, or is an attempt
to commit, which leaves the table alone and sends a first part of the log. -/
theorem inside_cases {table : Table} {tx : Transaction} {log : PendingLog}
    (bound : table.binding = some ⟨tx, log⟩) {call : TableCall} (inside : call.isInside)
    (store : σ) :
    (memory (table.perform store call).2.2 = memory store ∧ ∃ entries,
      (table.perform store call).2.1 = table.extendLog entries ∧
        Noted tx table.config.preImageMaxVersions (memory store) (call.accepted table store)
          entries) ∨
      (call = .commit ∧ (table.perform store call).2.1 = table ∧
        ∃ sent, sent <+: log.mutations ∧
          Intake (memory store) sent (memory (table.perform store call).2.2)) := by
  have reads : ∀ {call : TableCall}, call.mutations = [] →
      (memory (table.perform store call).2.2 = memory store ∧ ∃ noted : List Get,
        (table.perform store call).2.1 = table.extendLog (noted.map .get)) →
      memory (table.perform store call).2.2 = memory store ∧ ∃ entries,
        (table.perform store call).2.1 = table.extendLog entries ∧
          Noted tx table.config.preImageMaxVersions (memory store) (call.accepted table store)
            entries := by
    intro call nothing ⟨kept, noted, same⟩
    refine ⟨kept, _, same, ?_⟩
    rw [TableCall.accepted, nothing, ite_self]
    exact .reads noted
  have writes : ∀ mutations : List Mutation,
      memory (table.write mutations store).2.2 = memory store ∧ ∃ entries,
        (table.write mutations store).2.1 = table.extendLog entries ∧
          Noted tx table.config.preImageMaxVersions (memory store)
            (if (table.write mutations store).1.isOk then mutations else []) entries := by
    intro mutations
    obtain ⟨entries, same, prepared⟩ := write_cases (bound_eq_ok bound) mutations store
    exact ⟨table.memory_write mutations store, entries, same, .writes prepared⟩
  have unchanged : ∃ noted : List Get, table = table.extendLog (noted.map .get) :=
    ⟨[], table.extendLog_nil.symm⟩
  cases call with
  | get request =>
    exact .inl (reads rfl (table.reading_cases _ _ MemoryLayer.memory_get store))
  | holds request =>
    exact .inl (reads rfl (table.reading_cases _ _ MemoryLayer.memory_holds store))
  | getMany requests =>
    exact .inl (reads rfl (table.reading_cases _ _ MemoryLayer.memory_getMany store))
  | scan request =>
    exact .inl (reads rfl (table.reading_cases _ _ MemoryLayer.memory_scan store))
  | scanFamily family =>
    exact .inl (reads rfl (table.reading_cases _ _ MemoryLayer.memory_scan store))
  | scanColumn column =>
    exact .inl (reads rfl (table.reading_cases _ _ MemoryLayer.memory_scan store))
  | put request => exact .inl (writes _)
  | putMany requests => exact .inl (writes _)
  | delete request => exact .inl (writes _)
  | deleteMany requests => exact .inl (writes _)
  | mutateRow request => exact .inl (writes _)
  | changeDescriptor => exact .inl (reads rfl ⟨rfl, unchanged⟩)
  | changes => exact .inl (reads rfl ⟨rfl, unchanged⟩)
  | commit =>
    obtain ⟨sent, first, intake, _⟩ := replay_sends log store
    refine .inr ⟨rfl, rfl, sent, first, ?_⟩
    simpa [perform, commit, bound] using intake
  | _ => simp [TableCall.isInside, TableCall.isTransactional] at inside

theorem perform_of_unbound {table : Table} (unbound : table.binding = none) {call : TableCall}
    (known : call.isInside ∨ call = .rollback ∨ call = .postCommit) (store : σ) :
    (table.perform store call).2.1.binding = none ∧
      memory (table.perform store call).2.2 = memory store := by
  have transactional : call.isTransactional → (table.perform store call).2.1.binding = none ∧
      memory (table.perform store call).2.2 = memory store := by
    intro needs
    rw [unchanged_of_unbound unbound needs]
    exact ⟨unbound, rfl⟩
  rcases known with inside | rfl | rfl
  · exact transactional (Bool.and_eq_true_iff.1 inside).1
  · exact transactional rfl
  · exact ⟨rfl, rfl⟩

theorem commit_ok {table : Table} {tx : Transaction} {log : PendingLog}
    (bound : table.binding = some ⟨tx, log⟩) {store : σ}
    (succeeded : (table.commit store).1 = .ok ()) :
    Intake (memory store) log.mutations (memory (table.commit store).2) ∧
      (memory (table.commit store).2).buffer = [] := by
  obtain ⟨sent, _, intake, complete⟩ := replay_sends log store
  simp only [commit, bound] at succeeded ⊢
  have done : (replay log store).1 = .ok () := by
    cases result : (replay log store).1 with
    | error error =>
      rw [result] at succeeded
      cases succeeded
    | ok _ => rfl
  obtain ⟨rfl, settled⟩ := complete done
  exact ⟨intake, settled⟩

end Table

end SnapshotTable
