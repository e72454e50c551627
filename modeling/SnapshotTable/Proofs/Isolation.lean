import Mathlib.Data.Fin.VecNotation
import SnapshotTable.Proofs.Calls
import SnapshotTable.Sample

/-!
Writes that wait for their commit, on a store that many tables share. A put or a delete adds to the
log of its table or is refused, and that is all: neither the cells of the store nor its buffer nor
its clock change, and no read shows that the call was made, not even one of the same table.
-/

namespace SnapshotTable

set_option autoImplicit false

namespace TableCall

def isBuffering : TableCall → Bool
  | put _ | putMany _ | delete _ | deleteMany _ | mutateRow _ => true
  | _ => false

def isRead : TableCall → Bool
  | get _ | holds _ | getMany _ | scan _ | scanFamily _ | scanColumn _ => true
  | _ => false

end TableCall

namespace Table

section Layer

variable {σ : Type}

theorem reading_congr {ρ α β : Type} {table other : Table} (same : table.bound = other.bound)
    (make : Transaction → α → Except CodecError ρ) (request : α) (gets : ρ → List Get)
    (perform : ρ → σ → Except StoreError β × σ) (store : σ) :
    (table.reading (table.made make request) gets perform store).1 =
      (other.reading (other.made make request) gets perform store).1 := by
  have request' : table.made make request = other.made make request := by rw [made, made, same]
  rw [request']
  simp only [reading]
  split
  · rfl
  · split <;> rfl

variable [CellStore σ]

theorem bound_write (table : Table) (mutations : List Mutation) (store : σ) :
    (table.write mutations store).2.1.bound = table.bound := by
  rw [write]
  split
  · rfl
  · exact table.bound_extendLog _

theorem read_congr {table other : Table} (same : table.bound = other.bound) {call : TableCall}
    (read : call.isRead) (store : σ) :
    (table.perform store call).1 = (other.perform store call).1 := by
  cases call with
  | get request => exact reading_congr same ..
  | holds request => exact reading_congr same ..
  | getMany requests => exact reading_congr same ..
  | scan request => exact reading_congr same ..
  | scanFamily family => exact reading_congr same ..
  | scanColumn column => exact reading_congr same ..
  | _ => cases read

end Layer

theorem buffering_keeps (table : Table) {call : TableCall} (buffering : call.isBuffering)
    (store : MemoryStore) : (table.perform store call).2.2 = store ∧
      (table.perform store call).2.1.bound = table.bound := by
  have writes : ∀ mutations, (table.write mutations store).2.2 = store ∧
      (table.write mutations store).2.1.bound = table.bound := fun mutations =>
    ⟨table.memory_write mutations store, table.bound_write mutations store⟩
  cases call with
  | put request => exact writes _
  | putMany requests => exact writes _
  | delete request => exact writes _
  | deleteMany requests => exact writes _
  | mutateRow request => exact writes _
  | _ => cases buffering

end Table

structure SharedStore (ι : Type) where
  tables : ι → Table
  store : MemoryStore

structure Visit (ι : Type) where
  who : ι
  call : TableCall
deriving DecidableEq

structure Reply (ι : Type) where
  visit : Visit ι
  result : Except TableError visit.call.Reply

namespace SharedStore

variable {ι : Type} [DecidableEq ι]

def reply (shared : SharedStore ι) (visit : Visit ι) : Reply ι :=
  ⟨visit, ((shared.tables visit.who).perform shared.store visit.call).1⟩

def after (shared : SharedStore ι) (visit : Visit ι) : SharedStore ι :=
  let (_, table, store) := (shared.tables visit.who).perform shared.store visit.call
  ⟨Function.update shared.tables visit.who table, store⟩

def run (shared : SharedStore ι) (visits : List (Visit ι)) : SharedStore ι :=
  visits.foldl after shared

def replies (shared : SharedStore ι) : List (Visit ι) → List (Reply ι)
  | [] => []
  | visit :: rest => shared.reply visit :: (shared.after visit).replies rest

/-- But for the log of the writer, the two sides are the same. -/
structure AlikeBut (writer : ι) (shared without : SharedStore ι) : Prop where
  store : shared.store = without.store
  others : ∀ who, who ≠ writer → shared.tables who = without.tables who
  bound : (shared.tables writer).bound = (without.tables writer).bound

namespace AlikeBut

variable {writer : ι} {shared without : SharedStore ι} {visit : Visit ι}

theorem own_visit (alike : shared.AlikeBut writer without) (own : visit.who = writer)
    (buffering : visit.call.isBuffering) : (shared.after visit).AlikeBut writer without := by
  subst own
  obtain ⟨store, bound⟩ := (shared.tables visit.who).buffering_keeps buffering shared.store
  refine ⟨store.trans alike.store, fun who other => ?_, ?_⟩
  · exact (Function.update_of_ne other _ _).trans (alike.others who other)
  · exact (congrArg Table.bound (Function.update_self ..)).trans (bound.trans alike.bound)

theorem other_visit (alike : shared.AlikeBut writer without) (other : visit.who ≠ writer) :
    shared.reply visit = without.reply visit ∧
      (shared.after visit).AlikeBut writer (without.after visit) := by
  have table := alike.others visit.who other
  refine ⟨by rw [reply, reply, table, alike.store], ?_, fun who away => ?_, ?_⟩
  · simp only [after, table, alike.store]
  · simp only [after, table, alike.store]
    by_cases here : who = visit.who
    · rw [here, Function.update_self, Function.update_self]
    · rw [Function.update_of_ne here, Function.update_of_ne here, alike.others who away]
  · simp only [after]
    rw [Function.update_of_ne (Ne.symm other), Function.update_of_ne (Ne.symm other), alike.bound]

theorem read (alike : shared.AlikeBut writer without) (reads : visit.call.isRead) :
    shared.reply visit = without.reply visit := by
  have bound : (shared.tables visit.who).bound = (without.tables visit.who).bound := by
    by_cases own : visit.who = writer
    · rw [own]
      exact alike.bound
    · rw [alike.others visit.who own]
  rw [reply, reply, alike.store, Table.read_congr bound reads]

/-- A run beside the same run without the visits of the writer. -/
theorem run (alike : shared.AlikeBut writer without) {visits : List (Visit ι)}
    (buffering : ∀ visit ∈ visits, visit.who = writer → visit.call.isBuffering) :
    (shared.run visits).AlikeBut writer (without.run (visits.filter (·.who ≠ writer))) ∧
      (shared.replies visits).filter (·.visit.who ≠ writer) =
        without.replies (visits.filter (·.who ≠ writer)) := by
  induction visits generalizing shared without with
  | nil => exact ⟨alike, rfl⟩
  | cons visit rest ih =>
    obtain ⟨here, later⟩ := List.forall_mem_cons.1 buffering
    by_cases own : visit.who = writer
    · have left : (visit :: rest).filter (·.who ≠ writer) = rest.filter (·.who ≠ writer) :=
        List.filter_cons_of_neg (by simp [own])
      have dropped : (shared.replies (visit :: rest)).filter (·.visit.who ≠ writer) =
          ((shared.after visit).replies rest).filter (·.visit.who ≠ writer) :=
        List.filter_cons_of_neg (by simp [reply, own])
      rw [left, dropped]
      exact ih (alike.own_visit own (here own)) later
    · obtain ⟨same, next⟩ := alike.other_visit own
      obtain ⟨ran, replied⟩ := ih next later
      have kept : (visit :: rest).filter (·.who ≠ writer) =
          visit :: rest.filter (·.who ≠ writer) := List.filter_cons_of_pos (by simp [own])
      have listed : (shared.replies (visit :: rest)).filter (·.visit.who ≠ writer) =
          shared.reply visit :: ((shared.after visit).replies rest).filter (·.visit.who ≠ writer) :=
        List.filter_cons_of_pos (by simp [reply, own])
      rw [kept, listed, replied, same]
      exact ⟨ran, rfl⟩

end AlikeBut

/-- One of the tables on a store only puts and deletes, with whatever success, and neither commits
nor rolls back. Then the run leaves the store, all of it, as the same run leaves it without this
table's visits, and every read of every table returns what it returns there, as do all calls of the
other tables on the way. If nobody else calls, that is what there was before. -/
theorem buffered_writes_are_unseen (shared : SharedStore ι) (writer : ι) {visits : List (Visit ι)}
    (buffering : ∀ visit ∈ visits, visit.who = writer → visit.call.isBuffering) :
    let others := visits.filter (·.who ≠ writer)
    (shared.run visits).store = (shared.run others).store ∧
    (∀ visit : Visit ι, visit.call.isRead →
      (shared.run visits).reply visit = (shared.run others).reply visit) ∧
    (shared.replies visits).filter (·.visit.who ≠ writer) = shared.replies others ∧
    ((∀ visit ∈ visits, visit.who = writer) → shared.run others = shared) := by
  intro others
  have same : shared.AlikeBut writer shared := ⟨rfl, fun _ _ => rfl, rfl⟩
  obtain ⟨alike, replied⟩ := same.run buffering
  refine ⟨alike.store, fun visit reads => alike.read reads, replied, fun alone => ?_⟩
  have nobody : others = [] := by
    rw [List.filter_eq_nil_iff]
    intro visit mem
    simpa using alone visit mem
  rw [nobody]
  rfl

/-- The writer puts, is refused an empty put, and deletes the row twice, the second time after
another table has committed a put to it. A third table, whose snapshot shows the writer's pointer,
reads the row as if the writer had not called, and so does the writer. -/
theorem buffered_writes_are_unseen_by_later_snapshot :
    let store := Sample.store [{ row := "r", version := 1, value := [1] }]
    let bound (tx : Transaction) : Table := (({} : Table).bind tx).2
    let tables := ![bound (.new ⟨1⟩ ⟨2⟩ []), bound (.new ⟨1⟩ ⟨3⟩ []), bound (.new ⟨3⟩ ⟨4⟩ [])]
    let shared : SharedStore (Fin 3) := ⟨tables, store⟩
    let visits : List (Visit (Fin 3)) := [⟨0, (Sample.RowWrite.put "r" "c" [2]).call⟩,
      ⟨0, .put { row := Bytes.ofText "r" }⟩, ⟨0, (Sample.RowWrite.deleteRow "r").call⟩,
      ⟨1, (Sample.RowWrite.put "r" "c" [3]).call⟩, ⟨1, .commit⟩,
      ⟨0, (Sample.RowWrite.deleteRow "r").call⟩]
    let read (who : Fin 3) : Visit (Fin 3) := ⟨who, .get { row := Bytes.ofText "r" }⟩
    ((shared.run visits).tables 0).pendingCount = 3 ∧
      (shared.run visits).store = (shared.run (visits.filter (·.who ≠ 0))).store ∧
      ((shared.run visits).store.get { row := Bytes.ofText "r" }).cells =
        [⟨Sample.column, ⟨3⟩, [3]⟩] ∧
      ∀ who, (shared.run visits).reply (read who) =
        (shared.run (visits.filter (·.who ≠ 0))).reply (read who) := by
  intro store bound tables shared visits read
  have buffering : ∀ visit ∈ visits, visit.who = 0 → visit.call.isBuffering := by decide
  obtain ⟨left, seen, _, _⟩ := buffered_writes_are_unseen shared 0 buffering
  exact ⟨by decide +kernel, left, by decide +kernel, fun who => seen (read who) rfl⟩

end SharedStore

end SnapshotTable
