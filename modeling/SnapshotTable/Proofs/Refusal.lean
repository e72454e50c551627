import SnapshotTable.Proofs.Binding
import SnapshotTable.Sample
import SnapshotTable.Store.Faulty

/-!
What a table without a transaction makes of the calls that need one. A read asks for the transaction
before anything else, and so do the calls about the transaction itself. A write asks for it with
every mutation that it prepares, so a batch without mutations is never asked and goes through.
-/

namespace SnapshotTable

set_option autoImplicit false

def TableCall.isEmptyBatch : TableCall → Bool
  | putMany requests => requests.isEmpty
  | deleteMany requests => requests.isEmpty
  | mutateRow request => request.mutations.isEmpty
  | _ => false

namespace Table

variable {σ : Type} {table : Table}

section Unbound

variable (unbound : table.binding = none)

include unbound

theorem reading_of_unbound {α β ρ : Type} (make : Transaction → α → Except CodecError ρ)
    (request : α) (gets : ρ → List Get) (perform : ρ → σ → Except StoreError β × σ) (store : σ) :
    table.reading (table.made make request) gets perform store = (.error .notBound, table, store) := by
  rw [made, bound_of_unbound unbound]
  rfl

variable [CellStore σ]

theorem prepareAll_of_unbound (mutations : List Mutation) (store : σ) :
    table.prepareAll mutations store =
      (if mutations.isEmpty then .ok [] else .error .notBound, store) := by
  cases mutations with
  | nil => rfl
  | cons mutation rest =>
    have refused : table.prepare mutation store = (.error .notBound, store) := by
      rw [prepare, bound_of_unbound unbound]
    rw [prepareAll, refused]
    rfl

theorem write_of_unbound (mutations : List Mutation) (store : σ) :
    table.write mutations store =
      (if mutations.isEmpty then .ok () else .error .notBound, table, store) := by
  rw [write, prepareAll_of_unbound unbound]
  cases mutations with
  | nil => exact congrArg (fun same => (_, same, store)) table.extendLog_nil
  | cons mutation rest => rfl

theorem refused_of_unbound {call : TableCall} (transactional : call.isTransactional)
    (other : call.isEmptyBatch = false) (store : σ) :
    table.perform store call = (.error .notBound, table, store) := by
  have writes : ∀ mutations : List Mutation, mutations.isEmpty = false →
      table.write mutations store = (.error .notBound, table, store) := by
    intro mutations some
    simp [write_of_unbound unbound, some]
  have descriptor : table.changeDescriptor = .error .notBound := by
    rw [changeDescriptor, bound_of_unbound unbound]
  cases call with
  | get request => exact reading_of_unbound unbound ..
  | holds request => exact reading_of_unbound unbound ..
  | getMany requests => exact reading_of_unbound unbound ..
  | scan request => exact reading_of_unbound unbound ..
  | scanFamily family => exact reading_of_unbound unbound ..
  | scanColumn column => exact reading_of_unbound unbound ..
  | put request => exact writes _ rfl
  | delete request => exact writes _ rfl
  | putMany requests => exact writes _ (by simpa [TableCall.isEmptyBatch] using other)
  | deleteMany requests => exact writes _ (by simpa [TableCall.isEmptyBatch] using other)
  | mutateRow request => exact writes _ other
  | changeDescriptor =>
    rw [perform, descriptor]
  | changes =>
    rw [perform, changes, descriptor]
    rfl
  | commit => simp only [perform, commit, unbound]
  | rollback => simp only [perform, rollback, unbound]
  | _ => simp [TableCall.isTransactional] at transactional

theorem accepted_of_unbound {call : TableCall} (empty : call.isEmptyBatch) (store : σ) :
    (table.perform store call).1.isOk ∧ (table.perform store call).2 = (table, store) := by
  have writes : table.write [] store = (.ok (), table, store) := write_of_unbound unbound [] store
  cases call with
  | putMany requests =>
    obtain rfl : requests = [] := List.isEmpty_iff.1 empty
    exact ⟨congrArg (·.1.isOk) writes, congrArg Prod.snd writes⟩
  | deleteMany requests =>
    obtain rfl : requests = [] := List.isEmpty_iff.1 empty
    exact ⟨congrArg (·.1.isOk) writes, congrArg Prod.snd writes⟩
  | mutateRow request =>
    have nothing : request.mutations = [] := List.isEmpty_iff.1 empty
    simp [perform, mutateRow, nothing, writes, Except.isOk, Except.toBool]
  | _ => simp [TableCall.isEmptyBatch] at empty

theorem unchanged_of_unbound {call : TableCall} (transactional : call.isTransactional)
    (store : σ) : (table.perform store call).2 = (table, store) := by
  cases empty : call.isEmptyBatch with
  | false => rw [refused_of_unbound unbound transactional empty]
  | true => exact (accepted_of_unbound unbound empty store).2

end Unbound

/-- An unbound table leaves itself and the store as they are at every call that needs a transaction,
and refuses all of them but empty batches. The store may be a layer that notes every call it gets,
so that none is made follows too. -/
theorem unbound_refuses_but_empty_batches [CellStore σ] (unbound : table.state = .unbound)
    {call : TableCall} (transactional : call.isTransactional) (store : σ) :
    (table.perform store call).2 = (table, store) ∧
      (call.isEmptyBatch = false → (table.perform store call).1 = .error .notBound) ∧
        (call.isEmptyBatch → (table.perform store call).1.isOk) := by
  have none := table.state_eq_unbound_iff.1 unbound
  refine ⟨unchanged_of_unbound none transactional store, fun other => ?_, fun empty => ?_⟩
  · rw [refused_of_unbound none transactional other]
  · exact (accepted_of_unbound none empty store).1

/-- A delete of two rows is refused before the first of them is read. -/
theorem unbound_refuses_batch_of_two_deletes :
    let table : Table := { config := { allowNonTransactional := true } }
    let store : FaultyStore MemoryStore :=
      { inner := Sample.store [{ row := "a", version := 1, value := [1] }] }
    let call : TableCall := .deleteMany [{ row := Bytes.ofText "a" }, { row := Bytes.ofText "b" }]
    (table.perform store call).1 = .error .notBound ∧ (table.perform store call).2.2.calls = [] := by
  intro table store call
  have unbound : table.state = .unbound := rfl
  have transactional : call.isTransactional := rfl
  obtain ⟨same, refused, _⟩ := unbound_refuses_but_empty_batches unbound transactional store
  exact ⟨refused rfl, by rw [same]⟩

/-- Empty batches need a transaction like all other writes, but a new table accepts them. -/
theorem unbound_accepts_empty_batches :
    let table : Table := {}
    let store : MemoryStore := {}
    let mutations := RowMutations.empty (Bytes.ofText "r")
    table.state = .unbound ∧
      ((TableCall.putMany []).isTransactional ∧ (table.perform store (.putMany [])).1 = .ok ()) ∧
      ((TableCall.deleteMany []).isTransactional ∧
        (table.perform store (.deleteMany [])).1 = .ok ()) ∧
      (TableCall.mutateRow mutations).isTransactional ∧
        (table.perform store (.mutateRow mutations)).1 = .ok () :=
  ⟨rfl, ⟨rfl, rfl⟩, ⟨rfl, rfl⟩, rfl, rfl⟩

end Table

end SnapshotTable
