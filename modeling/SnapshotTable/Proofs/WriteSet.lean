import Mathlib.Data.List.Induction
import SnapshotTable.Proofs.Buffer
import SnapshotTable.Proofs.Locality
import SnapshotTable.Proofs.Occupancy

/-!
The rows that a table reports as changed. The log gives each row of its writes once, in the order of
the first writes, and the calls that end a transaction leave every other row of the store alone,
however many of their writes fail on the way.
-/

namespace SnapshotTable

set_option autoImplicit false

namespace PendingLog

/-- The position of the first write to a row; the length of the log if there is none. -/
def firstWrite (log : PendingLog) (row : Bytes) : Nat :=
  log.findIdx fun entry => entry.isWrite && entry.row == row

def WrittenBefore (log : PendingLog) (row other : Bytes) : Prop :=
  log.firstWrite row < log.firstWrite other

instance (log : PendingLog) : Std.Asymm (WrittenBefore log) where
  asymm _ _ := Nat.lt_asymm

/-- The rows of the writes in the order in which they are first written to. -/
structure FirstWrites (log : PendingLog) (rows : List Bytes) : Prop where
  mem_iff : ∀ row, row ∈ rows ↔ ∃ entry ∈ log, entry.isWrite ∧ entry.row = row
  ascending : rows.Pairwise (WrittenBefore log)

variable {log : PendingLog} {rows : List Bytes} {row : Bytes}

theorem FirstWrites.nodup (listed : FirstWrites log rows) : rows.Nodup :=
  listed.ascending.imp fun before same => by
    rw [same] at before
    exact Nat.lt_irrefl _ before

theorem mem_changedRows_iff_firstWrite :
    row ∈ log.changedRows ↔ log.firstWrite row < log.length := by
  rw [mem_changedRows_iff, firstWrite, List.findIdx_lt_length]
  simp only [Bool.and_eq_true, beq_iff_eq]

theorem firstWrite_concat_of_mem (entry : PendingEntry) (mem : row ∈ log.changedRows) :
    firstWrite (log ++ [entry]) row = log.firstWrite row := by
  have found := mem_changedRows_iff_firstWrite.1 mem
  rw [firstWrite, List.findIdx_append]
  exact if_pos found

theorem length_le_firstWrite_concat (entry : PendingEntry) (fresh : row ∉ log.changedRows) :
    log.length ≤ firstWrite (log ++ [entry]) row := by
  have missed := mt mem_changedRows_iff_firstWrite.2 fresh
  rw [firstWrite] at missed
  rw [firstWrite, List.findIdx_append, if_neg missed]
  exact Nat.le_add_left _ _

theorem changedRows_concat (log : PendingLog) (entry : PendingEntry) :
    changedRows (log ++ [entry]) =
      if entry.isWrite then touch log.changedRows entry.row else log.changedRows := by
  rw [changedRows, List.filter_append, List.map_append, List.foldl_append]
  by_cases write : entry.isWrite
  · rw [if_pos write, List.filter_cons_of_pos write]
    rfl
  · rw [if_neg write, List.filter_cons_of_neg write]
    rfl

theorem ascending_changedRows (log : PendingLog) :
    log.changedRows.Pairwise (WrittenBefore log) := by
  induction log using List.reverseRecOn with
  | nil => exact .nil
  | append_singleton log entry ih =>
    have kept : (changedRows log).Pairwise (WrittenBefore (log ++ [entry])) := by
      refine ih.imp_of_mem fun here there before => ?_
      rw [WrittenBefore, firstWrite_concat_of_mem entry here, firstWrite_concat_of_mem entry there]
      exact before
    rw [changedRows_concat]
    split
    · rw [touch]
      split
      · exact kept
      · -- a row that is new is first written to by the last entry
        rename_i fresh
        refine List.pairwise_append.2 ⟨kept, List.pairwise_singleton _ _, ?_⟩
        intro row here other there
        rw [List.mem_singleton.1 there, WrittenBefore, firstWrite_concat_of_mem entry here]
        exact Nat.lt_of_lt_of_le (mem_changedRows_iff_firstWrite.1 here)
          (length_le_firstWrite_concat entry (mt List.contains_iff_mem.2 fresh))
    · exact kept

theorem firstWrites_changedRows (log : PendingLog) : FirstWrites log log.changedRows :=
  ⟨log.mem_changedRows_iff, log.ascending_changedRows⟩

theorem changedRows_eq_iff : log.changedRows = rows ↔ FirstWrites log rows := by
  have reported := log.firstWrites_changedRows
  constructor
  · rintro rfl
    exact reported
  · intro listed
    exact reported.ascending.eq_of_mem_iff listed.ascending fun row =>
      (reported.mem_iff row).trans (listed.mem_iff row).symm

end PendingLog

theorem PendingEntry.Recorded.row_of_undoCall? {tx : Transaction} {entry : PendingEntry}
    (recorded : entry.Recorded tx) {call : StoreCall}
    (undoes : entry.undoCall? tx = .ok (some call)) :
    ∃ mutation : Mutation, call = mutation.call ∧ entry.isWrite ∧ entry.row = mutation.row := by
  cases recorded with
  | read => cases undoes
  | write prepared =>
    cases prepared with
    | @put request stamped =>
      cases made : tx.undoPut stamped with
      | error error =>
        rw [undoCall?, made] at undoes
        cases undoes
      | ok undo =>
        rw [undoCall?, made] at undoes
        cases undoes
        exact ⟨.delete undo, rfl, rfl, (Transaction.undoPut_ok made).1.symm⟩
    | @delete request stamped read captured stamp =>
      rename_i held
      cases made : tx.undoDelete (held.get read) with
      | error error =>
        rw [undoCall?, made] at undoes
        cases undoes
      | ok undo? =>
        rw [undoCall?, made] at undoes
        cases undo? with
        | none => cases undoes
        | some undo =>
          cases undoes
          refine ⟨.put undo, rfl, rfl, ?_⟩
          change stamped.row = undo.row
          rw [(Transaction.undoDelete_ok made).1, held.row_get,
            (Transaction.preImageGet_ok captured).1, (Transaction.stampDelete_ok stamp).1]

/-- Nothing waits in the store, and the row is stored as it was, or missing as it was. -/
structure MemoryStore.Spares (row : Bytes) (store next : MemoryStore) : Prop where
  unbuffered : next.Unbuffered
  stored : next.rows.find? row = store.rows.find? row

namespace MemoryStore.Spares

variable {row : Bytes} {store next last : MemoryStore}

theorem refl (unbuffered : store.Unbuffered) : store.Spares row store := ⟨unbuffered, rfl⟩

theorem trans (spares : Spares row store next) (later : Spares row next last) :
    Spares row store last :=
  ⟨later.unbuffered, later.stored.trans spares.stored⟩

theorem accept (unbuffered : store.Unbuffered) {mutation : Mutation} (away : row ≠ mutation.row) :
    Spares row store (store.accept mutation) := by
  refine ⟨unbuffered.accept mutation, ?_⟩
  rw [MemoryStore.accept, if_pos unbuffered.auto]
  cases mutation with
  | put write => exact find?_applyPut_other away
  | delete removal => exact find?_applyDelete_other away

end MemoryStore.Spares

namespace Table

variable {σ : Type} [CellStore σ] [MemoryLayer σ] {row : Bytes} {tx : Transaction} {store : σ}

theorem spares_mutation (unbuffered : (memory store).Unbuffered) {mutation : Mutation}
    (away : row ≠ mutation.row) :
    (memory store).Spares row (memory (CellStore.perform mutation.call store).2) := by
  rcases MemoryLayer.perform_mutation mutation store with
    ⟨error, next, performed, same⟩ | ⟨reply, next, performed, same⟩
  · rw [performed, same]
    exact .refl unbuffered
  · rw [performed, same]
    exact .accept unbuffered away

theorem spares_flush (row : Bytes) (unbuffered : (memory store).Unbuffered) :
    (memory store).Spares row (memory (CellStore.perform .flush store).2) := by
  rcases MemoryLayer.perform_flush store with
    ⟨error, next, performed, same⟩ | ⟨next, performed, same⟩
  · rw [performed, same]
    exact .refl unbuffered
  · rw [performed, same, MemoryStore.flushBuffer_of_empty unbuffered.empty]
    exact .refl unbuffered

theorem spares_replay {log : PendingLog}
    (away : ∀ entry ∈ log, entry.isWrite → row ≠ entry.row)
    (unbuffered : (memory store).Unbuffered) :
    (memory store).Spares row (memory (replay log store).2) := by
  induction log generalizing store with
  | nil => exact spares_flush row unbuffered
  | cons entry rest ih =>
    obtain ⟨here, later⟩ := List.forall_mem_cons.1 away
    rw [replay, PendingEntry.commitCall?_eq]
    cases sends : entry.mutation? with
    | none => exact ih later unbuffered
    | some mutation =>
      obtain ⟨write, same⟩ := PendingEntry.isWrite_of_mutation? sends
      have spares := spares_mutation unbuffered (same ▸ here write)
      dsimp only [Option.map_some]
      cases performed : CellStore.perform mutation.call store with
      | mk reply next =>
        rw [performed] at spares
        cases reply with
        | error error => exact spares
        | ok reply => exact spares.trans (ih later spares.unbuffered)

theorem spares_compensate {entry : PendingEntry} (recorded : entry.Recorded tx)
    (away : entry.isWrite → row ≠ entry.row) (unbuffered : (memory store).Unbuffered) :
    (memory store).Spares row (memory (compensate tx entry store).2) := by
  rw [compensate]
  split
  · exact .refl unbuffered
  · exact .refl unbuffered
  · rename_i call undoes
    obtain ⟨mutation, rfl, write, same⟩ := recorded.row_of_undoCall? undoes
    have spares := spares_mutation unbuffered (same ▸ away write)
    split <;> (rename_i performed; rwa [performed] at spares)

theorem spares_compensateAll {entries : List PendingEntry}
    (recorded : ∀ entry ∈ entries, entry.Recorded tx)
    (away : ∀ entry ∈ entries, entry.isWrite → row ≠ entry.row)
    (unbuffered : (memory store).Unbuffered) :
    (memory store).Spares row (memory (compensateAll tx entries store).2) := by
  induction entries generalizing store with
  | nil =>
    have spares := spares_flush row unbuffered
    rw [compensateAll]
    split <;> (rename_i performed; rwa [performed] at spares)
  | cons entry rest ih =>
    obtain ⟨made, others⟩ := List.forall_mem_cons.1 recorded
    obtain ⟨here, later⟩ := List.forall_mem_cons.1 away
    have spares := spares_compensate made here unbuffered
    rw [compensateAll]
    exact spares.trans (ih others later spares.unbuffered)

/-- The changed rows of any log are the rows of its writes, each once, in the order of their first
writes. Whatever calls have led to a table, and whichever writes fail, neither the sending of its log
nor the undoing of it does anything to a row that is not among them. -/
theorem reported_rows_are_exact :
    (∀ log : PendingLog, log.changedRows.Nodup ∧
      ∀ rows, log.changedRows = rows ↔ log.FirstWrites rows) ∧
    ∀ (σ : Type) [CellStore σ] [MemoryLayer σ] (table : Table) (store : σ), Reached σ table →
      (memory store).Unbuffered → ∀ row ∉ table.changedRows,
        (memory (table.commit store).2).rows.find? row = (memory store).rows.find? row ∧
          (memory (table.rollback store).2.2).rows.find? row = (memory store).rows.find? row := by
  refine ⟨fun log => ⟨log.firstWrites_changedRows.nodup,
    fun rows => PendingLog.changedRows_eq_iff⟩, ?_⟩
  intro σ _ _ table store reached unbuffered row outside
  cases bound : table.binding with
  | none => simp only [commit, rollback, bound, and_self]
  | some binding =>
    have away : ∀ entry ∈ binding.log, entry.isWrite → row ≠ entry.row := by
      rintro entry mem write rfl
      refine outside ?_
      rw [changedRows, log_of_bound bound, PendingLog.mem_changedRows_iff]
      exact ⟨entry, mem, write, rfl⟩
    have recorded := reached.wellFormed.recorded binding bound
    have committed := spares_replay away unbuffered
    have undone := spares_compensateAll
      (fun entry mem => recorded entry (List.mem_reverse.1 mem))
      (fun entry mem => away entry (List.mem_reverse.1 mem)) unbuffered
    simp only [commit, rollback, bound]
    exact ⟨committed.stored, undone.stored⟩

/-- The commit fails at its second write and the rollback after it at its third one. The row that was
only read, next to those that were written to, is as it was. -/
theorem reported_rows_are_exact_past_failures :
    let row := Bytes.ofText "q"
    let store : FaultyStore MemoryStore :=
      { inner := Sample.store [⟨"q", Sample.column, 3, [1]⟩, ⟨"p", Sample.column, 3, [1]⟩]
        failingWrites := [1, 4] }
    let calls : List TableCall := [.bind (.new ⟨4⟩ ⟨6⟩ []), .get { row := row },
      (Sample.RowWrite.put "r" "c" [2]).call, (Sample.RowWrite.deleteRow "p").call,
      (Sample.RowWrite.put "r" "d" [2]).call]
    let table : Table := calls.foldl (fun table call => (table.perform store call).2.1)
      ({ config := { recordReads := true } } : Table)
    let failed := (table.commit store).2
    table.changedRows = [Bytes.ofText "r", Bytes.ofText "p"] ∧
      (table.commit store).1.isOk = false ∧ (table.rollback failed).1.isOk = false ∧
        (memory failed).rows.find? row = (memory store).rows.find? row ∧
          (memory (table.rollback failed).2.2).rows.find? row = (memory store).rows.find? row := by
  intro row store calls table failed
  have reached : Reached (FaultyStore MemoryStore) table :=
    (((((Reached.new _).call store _).call store _).call store _).call store _).call store _
  have unbuffered : (memory store).Unbuffered := ⟨by decide +kernel, by decide +kernel⟩
  have still : (memory failed).Unbuffered := ⟨by decide +kernel, by decide +kernel⟩
  have listed : table.changedRows = [Bytes.ofText "r", Bytes.ofText "p"] := by decide +kernel
  have outside : row ∉ table.changedRows := by decide +kernel
  have stopped : (table.commit store).1.isOk = false := by decide +kernel
  have stuck : (table.rollback failed).1.isOk = false := by decide +kernel
  have left : (table.commit store).2 = failed := rfl
  -- how the stores were made no longer counts
  clear_value table failed store row
  have sent := (reported_rows_are_exact.2 _ table store reached unbuffered row outside).1
  have undone := (reported_rows_are_exact.2 _ table failed reached still row outside).2
  rw [left] at sent
  exact ⟨listed, stopped, stuck, sent, undone.trans sent⟩

end Table

end SnapshotTable
