import Mathlib.Data.List.Forall2
import SnapshotTable.Proofs.Reading

/-!
All ways of reading through a table return the same. A scan gives what gets of the rows in its range
give, a batch of gets what each of them gives, and a test for existence what a get finds.
-/

namespace SnapshotTable

set_option autoImplicit false

namespace Bytes

theorem compare_eq_lt_iff {first second : Bytes} : compare first second = .lt ↔ first < second := by
  induction first generalizing second with
  | nil => cases second <;> simp [compare, List.compareLex]
  | cons byte rest ih =>
    cases second with
    | nil => simp [compare, List.compareLex]
    | cons other others =>
      change List.compareLex compare (byte :: rest) (other :: others) = .lt ↔ _
      rw [List.compareLex_cons_cons, Ordering.then_eq_lt, List.cons_lt_cons_iff,
        Std.compare_eq_lt, Std.LawfulEqCmp.compare_eq_iff_eq]
      exact or_congr_right (and_congr_right fun _ => ih)

theorem isLE_compare_iff {first second : Bytes} :
    (compare first second).isLE ↔ first ≤ second := by
  rw [← List.not_lt, ← compare_eq_lt_iff, ← Std.OrientedCmp.gt_iff_lt]
  cases compare first second <;> simp

end Bytes

/-- The row lies in the range of a scan: not before its start, and before its stop if it has one. -/
def Scan.Spans (request : Scan) (row : Bytes) : Prop :=
  request.start ≤ row ∧ ∀ stop ∈ request.stop, row < stop

theorem Scan.containsRow_iff (request : Scan) (row : Bytes) :
    request.containsRow row ↔ request.Spans row := by
  rw [containsRow, Spans, Bool.and_eq_true, Bytes.isLE_compare_iff]
  cases request.stop <;> simp [Bytes.compare_eq_lt_iff]

theorem Scan.not_spans {request : Scan} {stop : Bytes} (here : request.stop = some stop)
    (inverted : stop ≤ request.start) (row : Bytes) : ¬request.Spans row := by
  rintro ⟨started, before⟩
  exact List.not_lt.2 (List.le_trans inverted started) (before stop here)

namespace MemoryStore

variable {store : MemoryStore}

theorem getMany_of_open (opened : store.closed = false) (requests : List Get) :
    CellStore.getMany requests store = (.ok (requests.map store.get), store) := by
  induction requests with
  | nil => rfl
  | cons request rest ih =>
    simp [CellStore.getMany, get_eq, opened, ih]

theorem holds_of_open (opened : store.closed = false) (request : Get) :
    CellStore.holds request store = (.ok (!(store.get request).isEmpty), store) := by
  simp [CellStore.holds, get_eq, opened]

theorem row_stored_of_mem_scan {request : Scan} {result : RowResult}
    (mem : result ∈ store.scan request) : result.row ∈ store.rows.keys := by
  obtain ⟨_, nonempty, same⟩ := mem_scan_iff.1 mem
  obtain ⟨cell, first⟩ := List.exists_mem_of_ne_nil _ nonempty
  rw [same] at first
  obtain ⟨columns, _, held, _⟩ := find?_of_contents (contents_of_mem_get first).1
  exact SortedMap.mem_keys_iff.2 ⟨columns, held⟩

end MemoryStore

namespace Table

variable {table : Table} {tx : Transaction} {log : PendingLog} {store : MemoryStore}

/-- The results of a scan are those that gets with the scan's filter return for the rows in range,
empty ones apart, each once and in ascending order of the rows. -/
structure Collects (table : Table) (store : MemoryStore) (request : Scan)
    (results : List RowResult) : Prop where
  mem_iff : ∀ result, result ∈ results ↔ request.Spans result.row ∧ result.isEmpty = false ∧
    (table.get { row := result.row, filter := request.filter } store).1 = .ok result
  stored : ∀ result ∈ results, result.row ∈ store.rows.keys
  ascending : results.Pairwise fun first second => first.row < second.row

section Bound

variable (bound : table.binding = some ⟨tx, log⟩) (valid : tx.validate = .ok ())
  (opened : store.closed = false)

include bound valid opened

theorem scan_collects (request : Scan) : ∃ results,
    (table.scan request store).1 = .ok results ∧ table.Collects store request results := by
  refine ⟨_, scan_of_open bound valid opened request, fun result => ?_, fun result mem => ?_, ?_⟩
  · have inside : ({ request with filter := tx.restrict request.filter } : Scan).containsRow
        result.row ↔ request.Spans result.row := request.containsRow_iff result.row
    rw [get_of_open bound valid opened, Except.ok.injEq, MemoryStore.mem_scan_iff, inside,
      RowResult.isEmpty, List.isEmpty_eq_false_iff, eq_comm (b := result)]
  · exact MemoryStore.row_stored_of_mem_scan mem
  · exact (store.pairwise_scan _).imp Bytes.compare_eq_lt_iff.1

theorem holds_of_open (request : Get) : (table.holds request store).1 = .ok
    (!(store.get { row := request.row, filter := tx.restrict request.filter }).isEmpty) := by
  have made : tx.snapshotGet request = .ok _ := Descriptor.attach_of_valid valid _
  rw [holds, reading_of_made bound made, MemoryStore.holds_of_open opened]
  rfl

theorem getMany_of_open (requests : List Get) : (table.getMany requests store).1 = .ok
    (requests.map fun request =>
      store.get { row := request.row, filter := tx.restrict request.filter }) := by
  rw [getMany, reading_of_made bound (Transaction.snapshotGets_of_valid valid requests),
    MemoryStore.getMany_of_open opened, List.map_map]
  rfl

end Bound

end Table

/-- Through a table with a transaction a scan collects the gets of the rows in its range, and an
inverted range gives nothing; a scan of a family or a column is the scan of the whole table that
selects it; a batch of gets is answered like its gets one by one; and a test for existence tells
whether the get returns anything. -/
theorem read_paths_agree {table : Table} {tx : Transaction} {log : PendingLog}
    {store : MemoryStore} (bound : table.binding = some ⟨tx, log⟩) (valid : tx.validate = .ok ())
    (opened : store.closed = false) :
    (∀ request : Scan, ∃ results, (table.scan request store).1 = .ok results ∧
        table.Collects store request results ∧
          ∀ stop, request.stop = some stop → stop ≤ request.start → results = []) ∧
      (∀ family, table.perform store (.scanFamily family) =
        table.scan { filter := { selectors := [.family family] } } store) ∧
      (∀ column, table.perform store (.scanColumn column) =
        table.scan { filter := { selectors := [.column column] } } store) ∧
      (∀ requests, ∃ results, (table.getMany requests store).1 = .ok results ∧
        List.Forall₂ (fun request result => (table.get request store).1 = .ok result)
          requests results) ∧
      ∀ request, ∃ result, (table.get request store).1 = .ok result ∧
        (table.holds request store).1 = .ok (!result.isEmpty) := by
  refine ⟨fun request => ?_, fun _ => rfl, fun _ => rfl, fun requests => ?_, fun request => ?_⟩
  · obtain ⟨results, scanned, collects⟩ := Table.scan_collects bound valid opened request
    refine ⟨results, scanned, collects, fun stop here inverted => ?_⟩
    refine List.eq_nil_iff_forall_not_mem.2 fun result mem => ?_
    exact Scan.not_spans here inverted _ ((collects.mem_iff result).1 mem).1
  · refine ⟨_, Table.getMany_of_open bound valid opened requests, ?_⟩
    rw [List.forall₂_map_right_iff, List.forall₂_same]
    exact fun request _ => Table.get_of_open bound valid opened request
  · exact ⟨_, Table.get_of_open bound valid opened request,
      Table.holds_of_open bound valid opened request⟩

/-- From `a` up to `b` a scan meets the row whose key only continues `a`, and leaves out the row of
which nothing is seen. -/
theorem read_paths_agree_on_continued_key :
    let tx := Transaction.new ⟨1⟩ ⟨3⟩ []
    let store := Sample.store [{ row := "", version := 1, value := [1] },
      { row := "a", version := 1, value := [2] }, { row := "aa", version := 2, value := [3] },
      { row := "ab", version := 1, value := [4] }, { row := "b", version := 1, value := [5] }]
    let table : Table := (({} : Table).bind tx).2
    let request : Scan := { start := Bytes.ofText "a", stop := some (Bytes.ofText "b") }
    ∃ results, (table.scan request store).1 = .ok results ∧
      table.Collects store request results ∧
        results.map (·.row) = [Bytes.ofText "a", Bytes.ofText "ab"] := by
  intro tx store table request
  have bound : table.binding = some ⟨tx, []⟩ := rfl
  have opened : store.closed = false := by decide +kernel
  obtain ⟨results, scanned, collects, _⟩ :=
    (read_paths_agree bound (by decide) opened).1 request
  have rows : (table.scan request store).1.toOption.map (·.map (·.row)) =
      some [Bytes.ofText "a", Bytes.ofText "ab"] := by decide +kernel
  rw [scanned] at rows
  exact ⟨results, scanned, collects, Option.some.inj rows⟩

end SnapshotTable
