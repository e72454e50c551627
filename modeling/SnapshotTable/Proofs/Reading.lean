import SnapshotTable.Proofs.Layer
import SnapshotTable.Proofs.Snapshot
import SnapshotTable.Table.Call

/-!
What the reading calls of a bound table return. Whatever layers stand before the memory store, and
whatever it holds, they return cells that the transaction sees and no others.
-/

namespace SnapshotTable

set_option autoImplicit false

def TableCall.rows : (call : TableCall) → call.Reply → List RowResult
  | .get _, result => [result]
  | .getMany _, results => results
  | .scan _, results => results
  | .scanFamily _, results => results
  | .scanColumn _, results => results
  | _, _ => []

theorem mem_of_mapM_ok {ε α β : Type} {f : α → Except ε β} {inputs : List α} {outputs : List β}
    (passed : inputs.mapM f = .ok outputs) :
    ∀ output ∈ outputs, ∃ input ∈ inputs, f input = .ok output := by
  induction inputs generalizing outputs with
  | nil =>
    cases passed
    simp
  | cons input rest ih =>
    rw [List.mapM_cons] at passed
    cases first : f input with
    | error error =>
      rw [first] at passed
      cases passed
    | ok head =>
      cases others : rest.mapM f with
      | error error =>
        rw [first, others] at passed
        cases passed
      | ok tail =>
        rw [first, others] at passed
        cases passed
        intro output mem
        rcases List.mem_cons.1 mem with rfl | mem
        · exact ⟨input, List.mem_cons_self .., first⟩
        · obtain ⟨other, member, same⟩ := ih others output mem
          exact ⟨other, List.mem_cons_of_mem _ member, same⟩

namespace Transaction

variable {tx : Transaction}

theorem filter_snapshotGet {request stamped : Get} (made : tx.snapshotGet request = .ok stamped) :
    stamped.filter = tx.restrict request.filter := by
  rw [Descriptor.attach_ok made]
  rfl

theorem filter_snapshotScan {request stamped : Scan}
    (made : tx.snapshotScan request = .ok stamped) :
    stamped.filter = tx.restrict request.filter := by
  rw [Descriptor.attach_ok made]
  rfl

theorem snapshotGets_of_valid (valid : tx.validate = .ok ()) (requests : List Get) :
    requests.mapM tx.snapshotGet = .ok (requests.map fun request =>
      Attributed.setAttribute { request with filter := tx.restrict request.filter }
        Descriptor.attributeKey (Descriptor.wire tx).write) := by
  have each : tx.snapshotGet = fun request => pure (Attributed.setAttribute
      { request with filter := tx.restrict request.filter } Descriptor.attributeKey
        (Descriptor.wire tx).write) :=
    funext fun request => Descriptor.attach_of_valid valid _
  rw [each, List.mapM_pure]
  rfl

theorem filter_snapshotGets {requests stamped : List Get}
    (made : requests.mapM tx.snapshotGet = .ok stamped) :
    ∀ request ∈ stamped, ∃ filter, request.filter = tx.restrict filter := by
  intro request mem
  obtain ⟨asked, _, same⟩ := mem_of_mapM_ok made request mem
  exact ⟨asked.filter, filter_snapshotGet same⟩

end Transaction

theorem MemoryStore.sees_of_mem_get {store : MemoryStore} {request : Get} {tx : Transaction}
    {filter : Filter} (restricted : request.filter = tx.restrict filter) {cell : Cell}
    (mem : cell ∈ (store.get request).cells) : tx.sees cell.version := by
  have admitted := (contents_of_mem_get mem).2.2
  rw [restricted] at admitted
  exact tx.sees_of_admitted admitted

namespace MemoryLayer

variable {σ : Type} [CellStore σ] [MemoryLayer σ] {store : σ}

theorem scan_ok {request : Scan} {results : List RowResult}
    (read : (CellStore.scan request store).1 = .ok results) :
    results = (memory store).scan request := by
  rcases perform_cases (.scan request) store with ⟨⟨error, failed⟩, _⟩ | ⟨same, _⟩
  · have clash : (Except.error error : Except StoreError (List RowResult)) = .ok results :=
      failed.symm.trans read
    cases clash
  · have here : ((memory store).perform (.scan request)).1 = .ok results := same.symm.trans read
    by_cases closed : (memory store).closed
    · simp [MemoryStore.perform, closed] at here
    · simp only [MemoryStore.perform, closed] at here
      exact (Except.ok.inj here).symm

theorem getMany_ok {requests : List Get} {results : List RowResult}
    (read : (CellStore.getMany requests store).1 = .ok results) :
    ∀ result ∈ results, ∃ request ∈ requests, result = (memory store).get request := by
  induction requests generalizing store results with
  | nil =>
    cases read
    simp
  | cons request rest ih =>
    rw [CellStore.getMany] at read
    split at read
    · cases read
    · rename_i first next eq
      have kept := memory_get request store
      have head : first = (memory store).get request := get_ok (by rw [eq])
      rw [eq] at kept
      split at read
      · cases read
      · rename_i others last eq'
        cases read
        intro result mem
        rcases List.mem_cons.1 mem with rfl | mem
        · exact ⟨request, List.mem_cons_self .., head⟩
        · obtain ⟨other, member, same⟩ := ih (by rw [eq']) result mem
          exact ⟨other, List.mem_cons_of_mem _ member, same.trans (by rw [kept])⟩

end MemoryLayer

namespace Table

variable {σ : Type} {table : Table} {tx : Transaction} {log : PendingLog} {store : σ}

theorem reading_ok {ρ α β : Type} {make : Transaction → β → Except CodecError ρ} {request : β}
    {gets : ρ → List Get} {perform : ρ → σ → Except StoreError α × σ} {reply : α}
    (bound : table.binding = some ⟨tx, log⟩)
    (read : (table.reading (table.made make request) gets perform store).1 = .ok reply) :
    ∃ stamped, make tx request = .ok stamped ∧ (perform stamped store).1 = .ok reply := by
  rw [made_of_bound bound] at read
  cases made : make tx request with
  | error error =>
    rw [made] at read
    cases read
  | ok stamped =>
    rw [made] at read
    refine ⟨stamped, rfl, ?_⟩
    simp only [Except.mapError, reading] at read
    split at read
    · cases read
    · rename_i eq
      rw [eq]
      exact congrArg Except.ok (Except.ok.inj read)

variable [CellStore σ] [MemoryLayer σ]

theorem sees_of_scan (bound : table.binding = some ⟨tx, log⟩) {request : Scan}
    {results : List RowResult} (read : (table.scan request store).1 = .ok results) :
    ∀ result ∈ results, ∀ cell ∈ result.cells, tx.sees cell.version := by
  obtain ⟨stamped, made, answered⟩ := reading_ok bound read
  intro result mem cell inside
  rw [MemoryLayer.scan_ok answered, MemoryStore.mem_scan_iff] at mem
  rw [mem.2.2] at inside
  exact MemoryStore.sees_of_mem_get (Transaction.filter_snapshotScan made) inside

theorem sees_of_read (bound : table.binding = some ⟨tx, log⟩) {call : TableCall}
    {reply : call.Reply} (read : (table.perform store call).1 = .ok reply) :
    ∀ result ∈ call.rows reply, ∀ cell ∈ result.cells, tx.sees cell.version := by
  cases call with
  | get request =>
    obtain ⟨stamped, made, answered⟩ := reading_ok bound read
    intro result mem cell inside
    rw [List.mem_singleton.1 mem, MemoryLayer.get_ok answered] at inside
    exact MemoryStore.sees_of_mem_get (Transaction.filter_snapshotGet made) inside
  | getMany requests =>
    obtain ⟨stamped, made, answered⟩ := reading_ok bound read
    intro result mem cell inside
    obtain ⟨request, asked, same⟩ := MemoryLayer.getMany_ok answered result mem
    obtain ⟨filter, restricted⟩ := Transaction.filter_snapshotGets made request asked
    rw [same] at inside
    exact MemoryStore.sees_of_mem_get restricted inside
  | scan request => exact sees_of_scan bound read
  | scanFamily family => exact sees_of_scan bound read
  | scanColumn column => exact sees_of_scan bound read
  | _ => exact fun result mem => nomatch mem

end Table

end SnapshotTable
