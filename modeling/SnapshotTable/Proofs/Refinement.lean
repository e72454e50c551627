import SnapshotTable.Proofs.Flat
import SnapshotTable.Proofs.Intake

/-!
A memory store that flushes by itself as a flat map. Whatever is written to it, its nested maps
represent the flat map to which the same was written, and both answer every call alike.
-/

namespace SnapshotTable

set_option autoImplicit false

inductive CellCall where
  | put (request : Put)
  | delete (request : Delete)
  | get (request : Get)
  | scan (request : Scan)
  | rawRow (row : Bytes)
deriving DecidableEq

abbrev CellCall.Reply : CellCall → Type
  | put _ | delete _ => Unit
  | get _ | rawRow _ => RowResult
  | scan _ => List RowResult

def MemoryStore.answer (store : MemoryStore) :
    (call : CellCall) → Except StoreError call.Reply × MemoryStore
  | .put request => store.perform (.put request)
  | .delete request => store.perform (.delete request)
  | .get request => store.perform (.get request)
  | .scan request => store.perform (.scan request)
  | .rawRow row => (.ok (store.rawRow row), store)

def MemoryStore.answerAll (store : MemoryStore) (calls : List CellCall) : MemoryStore :=
  calls.foldl (fun store call => (store.answer call).2) store

namespace FlatStore

/-- A put without cells is refused. -/
def answer (store : FlatStore) : (call : CellCall) → Except StoreError call.Reply × FlatStore
  | .put request =>
    if request.isEmpty then (.error .emptyPut, store) else (.ok (), store.put request)
  | .delete request => (.ok (), store.delete request)
  | .get request => (.ok (store.get request), store)
  | .scan request => (.ok (store.scan request), store)
  | .rawRow row => (.ok (store.rawRow row), store)

def answerAll (store : FlatStore) (calls : List CellCall) : FlatStore :=
  calls.foldl (fun store call => (store.answer call).2) store

variable {store : FlatStore}

theorem ext_find? {left right : FlatStore}
    (cells : ∀ place, left.cells.find? place = right.cells.find? place)
    (clock : left.clock = right.clock) : left = right := by
  have same : left.cells = right.cells := SortedMap.ext_find? cells
  cases left
  cases right
  simp_all

theorem mem_rowCells {row : Bytes} {cell : Cell} : cell ∈ store.rowCells row ↔
    store.cells.find? ⟨row, cell.column, cell.version⟩ = some cell.value := by
  rw [← SortedMap.mem_entries_iff, rowCells, List.mem_filterMap]
  constructor
  · rintro ⟨⟨place, value⟩, mem, made⟩
    obtain ⟨rfl, same⟩ := Option.ite_none_right_eq_some.1 made
    cases same
    exact mem
  · intro mem
    exact ⟨_, mem, if_pos rfl⟩

theorem mem_get {request : Get} {cell : Cell} : cell ∈ (store.get request).cells ↔
    store.cells.find? ⟨request.row, cell.column, cell.version⟩ = some cell.value ∧
      request.filter.admitsColumn cell.column ∧ request.filter.admitsVersion cell.version ∧
        (store.newerCells request cell).length < request.filter.maxVersions := by
  rw [← mem_rowCells]
  change cell ∈ (store.rowCells request.row).filter _ ↔ _
  simp only [List.mem_filter, Bool.and_eq_true, decide_eq_true_eq, and_assoc]

theorem pairwise_get (store : FlatStore) (request : Get) :
    (store.get request).cells.Pairwise Cell.Before :=
  (store.pairwise_rowCells request.row).filter _

theorem contains_rows {row : Bytes} :
    store.rows.contains row ↔ ∃ cell, cell ∈ store.rowCells row := by
  rw [rows, SortedSet.contains_ofMembers_iff, List.mem_map]
  constructor
  · rintro ⟨place, mem, rfl⟩
    obtain ⟨⟨_, value⟩, held, rfl⟩ := List.mem_map.1 mem
    exact ⟨Place.cell _ value, mem_rowCells.2 ((SortedMap.mem_entries_iff ..).1 held)⟩
  · rintro ⟨cell, mem⟩
    have held := (SortedMap.mem_entries_iff ..).2 (mem_rowCells.1 mem)
    exact ⟨_, List.mem_map.2 ⟨_, held, rfl⟩, rfl⟩

theorem mem_scan {request : Scan} {result : RowResult} : result ∈ store.scan request ↔
    request.containsRow result.row ∧ result.cells ≠ [] ∧
      result = store.get { row := result.row, filter := request.filter } := by
  simp only [scan, List.mem_filter, List.mem_map, SortedSet.mem_toList_iff]
  constructor
  · rintro ⟨⟨row, ⟨held, inside⟩, rfl⟩, nonempty⟩
    exact ⟨inside, by simpa [RowResult.isEmpty] using nonempty, rfl⟩
  · rintro ⟨inside, nonempty, same⟩
    obtain ⟨cell, mem⟩ := List.exists_mem_of_ne_nil _ nonempty
    rw [same] at mem
    have held : cell ∈ store.rowCells result.row := mem_rowCells.2 (mem_get.1 mem).1
    exact ⟨⟨result.row, ⟨contains_rows.2 ⟨cell, held⟩, inside⟩, same.symm⟩, by
      simpa [RowResult.isEmpty] using nonempty⟩

theorem pairwise_scan (store : FlatStore) (request : Scan) :
    (store.scan request).Pairwise RowResult.Before := by
  rw [scan]
  refine List.Pairwise.filter _ (List.pairwise_map.2 ?_)
  exact (List.pairwise_map.2 store.rows.ascending).filter _

end FlatStore

namespace MemoryStore

variable {store : MemoryStore}

theorem rawRow_flat (store : MemoryStore) (row : Bytes) :
    store.rawRow row = store.flat.rawRow row := by
  have ordered : ((store.rows.find? row).elim [] Columns.all).Pairwise Cell.Before := by
    cases store.rows.find? row with
    | none => exact .nil
    | some columns => exact columns.pairwise_cells (fun _ => true) fun _ => .refl _
  have cells : (store.rawRow row).cells = (store.rows.find? row).elim [] Columns.all :=
    RowResult.cells_ofCells ordered
  refine RowResult.ext_mem rfl (cells ▸ ordered) (store.flat.pairwise_rowCells row) fun cell => ?_
  change _ ↔ cell ∈ store.flat.rowCells row
  rw [cells, FlatStore.mem_rowCells, find?_flat]
  cases held : store.rows.find? row with
  | none => simp [contents, cell?, held]
  | some columns =>
    change cell ∈ columns.cells (fun _ => true) id ↔ _
    rw [Columns.mem_cells]
    constructor
    · rintro ⟨_, versions, here, stored⟩
      exact (contents_of_find? held here _).trans ((SortedMap.mem_entries_iff ..).1 stored)
    · intro found
      obtain ⟨_, versions, same, here, stored⟩ := find?_of_contents found
      rw [held] at same
      cases same
      exact ⟨rfl, versions, here, (SortedMap.mem_entries_iff ..).2 stored⟩

theorem mem_newerCells_flat {request : Get} {cell other : Cell} :
    other ∈ store.flat.newerCells request cell ↔
      store.contents ⟨request.row, other.column, other.version⟩ = some other.value ∧
        other.column = cell.column ∧ request.filter.admitsVersion other.version ∧
          cell.version < other.version := by
  rw [FlatStore.newerCells, List.mem_filter, FlatStore.mem_rowCells, find?_flat]
  simp [and_assoc]

theorem length_newerCells_flat_lt_iff {request : Get} {cell : Cell} {bound : Nat} :
    (store.flat.newerCells request cell).length < bound ↔
      store.contents.FewAbove request.filter.admitsVersion
        ⟨request.row, cell.column, cell.version⟩ bound := by
  rw [← List.length_map (f := Cell.version)]
  constructor
  · intro few above distinct inside
    have listed : above ⊆ (store.flat.newerCells request cell).map (·.version) := by
      intro version member
      obtain ⟨newer, admitted, present⟩ := inside version member
      obtain ⟨value, found⟩ := Option.isSome_iff_exists.1 present
      exact List.mem_map.2 ⟨⟨cell.column, version, value⟩,
        mem_newerCells_flat.2 ⟨found, rfl, admitted, newer⟩, rfl⟩
    exact Nat.lt_of_le_of_lt (distinct.length_le_of_subset listed) few
  · intro few
    refine few _ (List.pairwise_map.2 ?_) fun version mem => ?_
    · refine ((store.flat.pairwise_rowCells request.row).filter _).imp_of_mem
        fun {first second} mem mem' before same => ?_
      have column := (mem_newerCells_flat.1 mem).2.1
      have column' := (mem_newerCells_flat.1 mem').2.1
      have here : first.column = second.column := column.trans column'.symm
      rcases before with less | ⟨_, newer⟩
      · simp [here, Std.ReflCmp.compare_self] at less
      · rw [same, Version.lt_iff] at newer
        exact Nat.lt_irrefl _ newer
    · obtain ⟨other, member, rfl⟩ := List.mem_map.1 mem
      obtain ⟨found, column, admitted, newer⟩ := mem_newerCells_flat.1 member
      rw [column] at found
      exact ⟨newer, admitted, Option.isSome_iff_exists.2 ⟨_, found⟩⟩

theorem get_flat (store : MemoryStore) (request : Get) :
    store.get request = store.flat.get request := by
  refine RowResult.ext_mem (store.row_get request) (store.pairwise_get request)
    (store.flat.pairwise_get request) fun cell => ?_
  rw [mem_get_iff_contents, FlatStore.mem_get, find?_flat, length_newerCells_flat_lt_iff]

theorem scan_flat (store : MemoryStore) (request : Scan) :
    store.scan request = store.flat.scan request := by
  refine (store.pairwise_scan request).eq_of_mem_iff (store.flat.pairwise_scan request)
    fun result => ?_
  rw [mem_scan_iff, FlatStore.mem_scan, get_flat]

theorem applyDelete_flat (store : MemoryStore) (request : Delete) :
    (store.applyDelete request).flat = store.flat.delete request := by
  refine FlatStore.ext_find? (fun place => ?_) rfl
  rw [find?_flat, FlatStore.delete, SortedMap.find?_filter, find?_flat, contents,
    cell?_applyDelete, contents]
  by_cases covered : place.row = request.row ∧ request.covers place.column place.version
  · rw [if_pos covered]
    cases store.cell? place.row place.column place.version <;> simp [Option.filter, covered]
  · have kept : (!(place.row == request.row && request.covers place.column place.version)) =
        true := by
      rw [Bool.not_eq_true', ← Bool.not_eq_true]
      simpa using covered
    rw [if_neg covered]
    cases store.cell? place.row place.column place.version <;> simp [Option.filter, kept]

theorem insertCell_flat (store : MemoryStore) (row : Bytes) (column : Column) (version : Version)
    (value : Bytes) : (store.insertCell row column version value).flat =
      ⟨store.flat.cells.insert ⟨row, column, version⟩ value, store.clock⟩ := by
  refine FlatStore.ext_find? (fun place => ?_) rfl
  have same : place = ⟨row, column, version⟩ ↔
      place.row = row ∧ place.column = column ∧ place.version = version := by
    cases place
    simp
  rw [find?_flat, SortedMap.find?_insert_eq, find?_flat, contents, cell?_insertCell, contents]
  simp only [same]

theorem writeCells_of_named (row : Bytes) {cell : Cell} (named : cell.version.isLatest = false)
    (rest : List Cell) (given : Option Version) (store : MemoryStore) :
    writeCells row (cell :: rest) given store = writeCells row rest given
      ((store.passVersion cell.version).insertCell row cell.column cell.version cell.value) := by
  simp [writeCells, resolve, named]

theorem writeCells_flat_of_given (row : Bytes) (cells : List Cell) (given : Version)
    (store : MemoryStore) : (writeCells row cells (some given) store).flat =
      ⟨FlatStore.write row (cells.map (·.placed given)) store.flat.cells,
        Cell.pass store.clock cells⟩ := by
  induction cells generalizing store with
  | nil => rfl
  | cons cell rest ih =>
    cases asks : cell.version.isLatest with
    | true =>
      have step : writeCells row (cell :: rest) (some given) store =
          writeCells row rest (some given)
            (store.insertCell row cell.column given cell.value) := by
        simp [writeCells, resolve, asks]
      rw [step, ih, insertCell_flat, List.map_cons, Cell.placed_of_asks asks,
        Cell.pass_of_asks asks]
      rfl
    | false =>
      rw [writeCells_of_named row asks, ih, insertCell_flat, List.map_cons,
        Cell.placed_of_named asks, Cell.pass_of_named asks]
      rfl

/-- The first cell that asks for the latest version makes the clock tick. -/
theorem writeCells_flat (row : Bytes) (cells : List Cell) (store : MemoryStore) :
    (writeCells row cells none store).flat =
      ⟨FlatStore.write row (cells.map (·.placed (Cell.assigned store.clock cells)))
        store.flat.cells, Cell.clockAfter store.clock cells⟩ := by
  induction cells generalizing store with
  | nil => rfl
  | cons cell rest ih =>
    cases asks : cell.version.isLatest with
    | true =>
      have step : writeCells row (cell :: rest) none store =
          writeCells row rest (some ⟨store.clock⟩)
            (store.tick.2.insertCell row cell.column ⟨store.clock⟩ cell.value) := by
        simp [writeCells, resolve, asks, tick]
      have leading : Cell.leading (cell :: rest) = [] := by simp [Cell.leading, asks]
      have following : Cell.following (cell :: rest) = cell :: rest := by
        simp [Cell.following, asks]
      have assigned : Cell.assigned store.clock (cell :: rest) = ⟨store.clock⟩ := by
        rw [Cell.assigned, leading]
        rfl
      have ticked : Cell.clockAfter store.clock (cell :: rest) =
          Cell.pass (store.clock + 1) rest := by
        rw [Cell.clockAfter, leading, following]
        exact Cell.pass_of_asks asks _ _
      rw [step, writeCells_flat_of_given, insertCell_flat, assigned, ticked, List.map_cons,
        Cell.placed_of_asks asks]
      rfl
    | false =>
      have leading : Cell.leading (cell :: rest) = cell :: Cell.leading rest := by
        simp [Cell.leading, asks]
      have following : Cell.following (cell :: rest) = Cell.following rest := by
        simp [Cell.following, asks]
      have assigned : Cell.assigned store.clock (cell :: rest) =
          Cell.assigned (max store.clock cell.version.next.value) rest := by
        rw [Cell.assigned, leading, Cell.pass_of_named asks]
        rfl
      have ticked : Cell.clockAfter store.clock (cell :: rest) =
          Cell.clockAfter (max store.clock cell.version.next.value) rest := by
        rw [Cell.clockAfter, leading, following, Cell.pass_of_named asks, Cell.pass_of_named asks]
        rfl
      rw [writeCells_of_named row asks, ih, insertCell_flat, assigned, ticked, List.map_cons,
        Cell.placed_of_named asks]
      rfl

theorem applyPut_flat (store : MemoryStore) (request : Put) :
    (store.applyPut request).flat = store.flat.put request := by
  have started : MemoryStore.flat { store with
      rows := store.rows.alter request.row fun columns => some (columns.getD .empty) } =
        store.flat := by
    refine FlatStore.ext_find? (fun place => ?_) rfl
    rw [find?_flat, find?_flat, contents_withRow]
  rw [applyPut, writeCells_flat, started]
  rfl

section Answer

variable (unbuffered : store.Unbuffered) (opened : store.closed = false)

include unbuffered opened

/-- One call is answered alike and leaves stores that represent each other. -/
theorem answer_flat (call : CellCall) : (store.answer call).1 = (store.flat.answer call).1 ∧
    (store.answer call).2.flat = (store.flat.answer call).2 := by
  cases call with
  | put request =>
    have accepted : store.accept (.put request) = store.applyPut request := by
      simp [accept, unbuffered.auto, apply]
    cases empty : request.isEmpty <;>
      simp [answer, FlatStore.answer, perform, performOpen, opened, empty, accepted,
        applyPut_flat]
  | delete request =>
    have accepted : store.accept (.delete request) = store.applyDelete request := by
      simp [accept, unbuffered.auto, apply]
    simp [answer, FlatStore.answer, perform, performOpen, opened, accepted, applyDelete_flat]
  | get request =>
    simp [answer, FlatStore.answer, perform, performOpen, opened, get_flat]
  | scan request =>
    simp [answer, FlatStore.answer, perform, performOpen, opened, scan_flat]
  | rawRow row => exact ⟨congrArg Except.ok (store.rawRow_flat row), rfl⟩

theorem unbuffered_answer (call : CellCall) :
    (store.answer call).2.Unbuffered ∧ (store.answer call).2.closed = false := by
  cases call with
  | put request =>
    refine ⟨unbuffered.perform (.put request), ?_⟩
    simp only [answer, perform, performOpen, opened, Bool.false_eq_true, if_false]
    split
    · exact opened
    · rw [closed_accept, opened]
  | delete | get | scan =>
    exact ⟨unbuffered.perform _, by simp [answer, perform, performOpen, opened]⟩
  | rawRow row => exact ⟨unbuffered, opened⟩

end Answer

theorem answerAll_flat (unbuffered : store.Unbuffered) (opened : store.closed = false)
    (calls : List CellCall) : (store.answerAll calls).Unbuffered ∧
      (store.answerAll calls).closed = false ∧
        (store.answerAll calls).flat = store.flat.answerAll calls := by
  induction calls generalizing store with
  | nil => exact ⟨unbuffered, opened, rfl⟩
  | cons call rest ih =>
    obtain ⟨settled, still⟩ := unbuffered_answer unbuffered opened call
    obtain ⟨last, remains, same⟩ := ih settled still
    refine ⟨last, remains, same.trans ?_⟩
    rw [(answer_flat unbuffered opened call).2]
    rfl

/-- An open memory store that flushes by itself represents, after any calls, the flat map that those
calls make of its own, place by place, and gives the answers that this map gives. -/
theorem answers_as_flat_map (unbuffered : store.Unbuffered) (opened : store.closed = false)
    (calls : List CellCall) :
    (store.answerAll calls).flat = store.flat.answerAll calls ∧
      (∀ place, (store.flat.answerAll calls).cells.find? place =
        (store.answerAll calls).cell? place.row place.column place.version) ∧
      ∀ call, ((store.answerAll calls).answer call).1 =
        ((store.flat.answerAll calls).answer call).1 := by
  obtain ⟨settled, still, same⟩ := answerAll_flat unbuffered opened calls
  refine ⟨same, fun place => ?_, fun call => ?_⟩
  · rw [← same]
    exact find?_flat _ place
  · rw [← same]
    exact (answer_flat settled still call).1

/-- A put whose first and last cell ask for the latest version, with one between them that names a
greater one, and then the removal of a column. -/
theorem answers_as_flat_map_past_delete :
    let store := Sample.store [{ row := "r", version := 3, value := [1] }]
    let put : Put :=
      { row := Bytes.ofText "r"
        cells := [⟨Sample.column, .latest, [2]⟩, ⟨Sample.columnOf "d", ⟨9⟩, [3]⟩,
          ⟨Sample.columnOf "d", .latest, [4]⟩] }
    let delete : Delete :=
      { row := Bytes.ofText "r", timestamp := ⟨3⟩, scopes := [.column Sample.column] }
    let flat := store.flat.answerAll [.put put, .delete delete]
    ((store.answerAll [.put put, .delete delete]).answer (.rawRow (Bytes.ofText "r"))).1 =
        .ok (flat.rawRow (Bytes.ofText "r")) ∧
      flat.rowCells (Bytes.ofText "r") = [⟨Sample.column, ⟨4⟩, [2]⟩,
        ⟨Sample.columnOf "d", ⟨9⟩, [3]⟩, ⟨Sample.columnOf "d", ⟨4⟩, [4]⟩] := by
  intro store put delete flat
  have unbuffered : store.Unbuffered := ⟨by decide +kernel, by decide +kernel⟩
  have same := answers_as_flat_map unbuffered (by decide +kernel) [.put put, .delete delete]
  exact ⟨same.2.2 (.rawRow _), by decide +kernel⟩

end MemoryStore

end SnapshotTable
