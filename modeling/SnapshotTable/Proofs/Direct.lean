import SnapshotTable.Proofs.Calls

/-!
Tables directly over a memory store that is open and keeps nothing back. There the end of a valid
transaction succeeds, so what it makes of the store follows from the log alone; and what the log can
write back is known from the stores in which its deletes were prepared.
-/

namespace SnapshotTable

set_option autoImplicit false

/-- A read, or a write that was prepared from a store of a certain kind. -/
inductive PendingEntry.Made (tx : Transaction) (kind : MemoryStore → Prop) : PendingEntry → Prop
  | read (request : Get) : Made tx kind (.get request)
  | write {maxVersions : Nat} {seen : MemoryStore} {mutation : Mutation} {entry : PendingEntry} :
    kind seen → Prepared tx maxVersions seen mutation entry → Made tx kind entry

namespace PendingEntry.Made

variable {tx : Transaction} {kind weaker : MemoryStore → Prop} {entry : PendingEntry}

theorem imp (made : entry.Made tx kind) (implies : ∀ seen, kind seen → weaker seen) :
    entry.Made tx weaker := by
  cases made with
  | read request => exact .read request
  | write fits prepared => exact .write (implies _ fits) prepared

theorem explicit (made : entry.Made tx kind) (ordinary : tx.writePointer ≠ .latest) :
    entry.Explicit := by
  cases made with
  | read request => trivial
  | write _ prepared => exact prepared.explicit ordinary

theorem hasCells (made : entry.Made tx kind) {mutation : Mutation}
    (sends : entry.mutation? = some mutation) : mutation.HasCells := by
  cases made with
  | read request => cases sends
  | write _ prepared => exact prepared.hasCells sends

theorem version_of_value (made : entry.Made tx kind) {mutation : Mutation}
    (sends : entry.mutation? = some mutation) {place : Place} {value : Bytes}
    (written : mutation.change place = some (some value)) : place.version = tx.writePointer := by
  cases made with
  | read request => cases sends
  | write _ prepared => exact prepared.version_of_value sends written

theorem undo_of_value (made : entry.Made tx kind) {mutation : Mutation}
    (sends : entry.mutation? = some mutation) {place : Place} {value : Bytes}
    (written : mutation.change place = some (some value)) : entry.undo place = some none := by
  cases made with
  | read request => cases sends
  | write _ prepared => exact prepared.undo_of_value sends written

theorem version_of_undo_none (made : entry.Made tx kind) {place : Place}
    (removed : entry.undo place = some none) : place.version = tx.writePointer := by
  cases made with
  | read request => cases removed
  | write _ prepared => exact prepared.undo_eq_none removed

theorem le_previous_of_undo (made : entry.Made tx kind) {place : Place} {value : Bytes}
    (restored : entry.undo place = some (some value)) :
    place.version ≤ tx.writePointer.previous := by
  cases made with
  | read request => cases restored
  | write _ prepared => exact prepared.le_previous_of_undo restored

theorem seen_of_undo (made : entry.Made tx kind) {place : Place} {value : Bytes}
    (restored : entry.undo place = some (some value)) :
    ∃ seen, kind seen ∧ seen.contents place = some value := by
  cases made with
  | read request => cases restored
  | write fits prepared => exact ⟨_, fits, prepared.undo_eq_value restored⟩

end PendingEntry.Made

theorem Noted.made {tx : Transaction} {maxVersions : Nat} {store : MemoryStore}
    {mutations : List Mutation} {entries : List PendingEntry}
    (noted : Noted tx maxVersions store mutations entries) {kind : MemoryStore → Prop}
    (fits : kind store) : ∀ entry ∈ entries, entry.Made tx kind :=
  noted.forall_entries (fun request => .read request) fun _ _ prepared => .write fits prepared

namespace Table

variable {table : Table} {tx : Transaction} {log : PendingLog} {store : MemoryStore}
  {kind : MemoryStore → Prop}

theorem inside_of_bound (bound : table.binding = some ⟨tx, log⟩) {call : TableCall}
    (inside : call.isInside) (fits : kind store) :
    call = .commit ∨ (table.perform store call).2.2 = store ∧ ∃ entries,
      (table.perform store call).2.1.binding = some ⟨tx, log ++ entries⟩ ∧
        ∀ entry ∈ entries, entry.Made tx kind := by
  rcases inside_cases bound inside store with ⟨kept, entries, same, noted⟩ | ⟨commits, _⟩
  · refine .inr ⟨kept, entries, ?_, noted.made fits⟩
    rw [same]
    exact extendLog_bound bound entries
  · exact .inl commits

theorem bound_of_inside (bound : table.binding = some ⟨tx, log⟩) {call : TableCall}
    (inside : call.isInside) (store : MemoryStore) :
    ∃ longer, (table.perform store call).2.1.binding = some ⟨tx, longer⟩ := by
  rcases inside_cases bound inside store with ⟨_, entries, same, _⟩ | ⟨_, same, _⟩
  · rw [same]
    exact ⟨_, extendLog_bound bound entries⟩
  · rw [same]
    exact ⟨log, bound⟩

theorem closed_of_perform (closed : store.closed) {call : TableCall}
    (known : call.isInside ∨ call = .rollback ∨ call = .postCommit) :
    (table.perform store call).2.2.closed := by
  cases bound : table.binding with
  | none =>
    obtain ⟨_, kept⟩ := perform_of_unbound bound known store
    change (memory (table.perform store call).2.2).closed
    rw [kept]
    exact closed
  | some binding =>
    rcases known with inside | rfl | rfl
    · rcases inside_cases bound inside store with ⟨kept, _⟩ | ⟨_, _, sent, _, intake⟩
      · change (memory (table.perform store call).2.2).closed
        rw [kept]
        exact closed
      · exact intake.closed_eq.trans closed
    · simp only [perform, rollback, bound, compensateAll_of_closed _ closed]
      exact closed
    · exact closed

theorem replay_of_open (opened : store.closed = false)
    (sendable : ∀ mutation ∈ log.mutations, mutation.HasCells) :
    (replay log store).1 = .ok () := by
  have same : CellStore.perform = MemoryStore.perform := rfl
  induction log generalizing store with
  | nil => simp only [replay, same, MemoryStore.perform_flush_of_open opened]
  | cons entry rest ih =>
    rw [replay, PendingEntry.commitCall?_eq]
    cases sends : entry.mutation? with
    | none =>
      apply ih opened
      simpa [PendingLog.mutations, sends] using sendable
    | some mutation =>
      have headed : PendingLog.mutations (entry :: rest) =
          mutation :: PendingLog.mutations rest := by
        simp [PendingLog.mutations, sends]
      rw [headed] at sendable
      obtain ⟨reply, performed⟩ := MemoryStore.perform_mutation_of_open opened
        (sendable mutation (List.mem_cons_self ..))
      have still : (store.accept mutation).closed = false := by simpa using opened
      simp only [Option.map_some, same, performed]
      exact ih still fun other mem => sendable other (List.mem_cons_of_mem _ mem)

theorem commit_of_open (bound : table.binding = some ⟨tx, log⟩) (valid : tx.validate = .ok ())
    (made : ∀ entry ∈ log, entry.Made tx kind) (unbuffered : store.Unbuffered)
    (opened : store.closed = false) :
    (table.commit store).1 = .ok () ∧
      (table.commit store).2.contents =
        store.contents.applyAll (log.mutations.map (·.change)) ∧
      (table.commit store).2.Unbuffered ∧ (table.commit store).2.closed = false := by
  have ordinary := (Transaction.validate_eq_ok_iff.1 valid).1
  have sendable : ∀ mutation ∈ log.mutations, mutation.HasCells := by
    intro mutation mem
    obtain ⟨entry, member, sends⟩ := List.mem_filterMap.1 mem
    exact (made entry member).hasCells sends
  have explicit : ∀ mutation ∈ log.mutations, mutation.Explicit := by
    intro mutation mem
    obtain ⟨entry, member, sends⟩ := List.mem_filterMap.1 mem
    exact ((made entry member).explicit ordinary).mutation sends
  have succeeded : (table.commit store).1 = .ok () := by
    simp only [commit, bound, replay_of_open opened sendable]
    rfl
  obtain ⟨intake, settled⟩ := commit_ok bound succeeded
  exact ⟨succeeded, intake.contents_eq unbuffered.empty settled explicit,
    intake.unbuffered unbuffered, intake.closed_eq.trans opened⟩

/-- A rollback succeeds and undoes the whole log, so that the oldest entry whose undoing touches a
place decides what stands there. -/
theorem rollback_of_open (bound : table.binding = some ⟨tx, log⟩) (valid : tx.validate = .ok ())
    (explicit : ∀ entry ∈ log, entry.Explicit) (unbuffered : store.Unbuffered)
    (opened : store.closed = false) :
    (table.rollback store).1 = .ok () ∧ (table.rollback store).2.1 = table.unbind ∧
      (∀ place, (table.rollback store).2.2.contents place =
        (log.findSome? (·.undo place)).getD (store.contents place)) ∧
      (table.rollback store).2.2.Unbuffered ∧ (table.rollback store).2.2.closed = false := by
  have clean := compensateAll_of_open valid opened log.reverse
  obtain ⟨sent, intake, undoes, complete⟩ := compensateAll_sends tx
    (fun entry mem => explicit entry (List.mem_reverse.1 mem)) store
  obtain ⟨settled, same⟩ := complete clean
  have after := intake.contents_eq unbuffered.empty settled fun made mem => (undoes made mem).1
  have rolledBack : table.rollback store =
      (.ok (), table.unbind, (compensateAll tx log.reverse store).2) := by
    simp only [rollback, bound, clean]
    rfl
  rw [rolledBack]
  refine ⟨rfl, rfl, fun place => ?_, intake.unbuffered unbuffered, intake.closed_eq.trans opened⟩
  rw [← PendingLog.applyAll_undo, ← same]
  exact congrFun after place

end Table

end SnapshotTable
