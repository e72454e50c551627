import SnapshotTable.Proofs.Snapshot

/-!
A cell store as one flat map from places to values, in the order of rows, columns and descending
versions. A put inserts its cells one by one, a delete filters the map, and reads list a part of it.
The nested maps of a memory store represent such a map.
-/

namespace SnapshotTable

set_option autoImplicit false

namespace Place

/-- Orders places by row and column, the newest version of a column first. -/
def order : Place → Place → Ordering :=
  compareLex (compareOn row) (compareLex (compareOn column) fun a b =>
    Version.newestFirst a.version b.version)

private theorem trans_version :
    Std.TransCmp fun a b : Place => Version.newestFirst a.version b.version where
  eq_swap := Std.OrientedCmp.eq_swap
  isLE_trans := Std.TransCmp.isLE_trans

instance : Std.TransCmp order :=
  have := trans_version
  inferInstanceAs (Std.TransCmp (compareLex (compareOn row) (compareLex (compareOn column)
    fun a b => Version.newestFirst a.version b.version)))

theorem order_eq_lt {first second : Place} : order first second = .lt ↔
    compare first.row second.row = .lt ∨ (first.row = second.row ∧
      (compare first.column second.column = .lt ∨
        (first.column = second.column ∧ second.version < first.version))) := by
  have rows : compareOn row first second = .eq ↔ first.row = second.row :=
    Std.LawfulEqOrd.compare_eq_iff_eq
  have columns : compareOn column first second = .eq ↔ first.column = second.column :=
    Std.LawfulEqOrd.compare_eq_iff_eq
  simp only [order, compareLex, Ordering.then_eq_lt, rows, columns, Version.newestFirst_eq_lt]
  rfl

instance : Std.LawfulEqCmp order where
  eq_of_compare {a b} same := by
    simp only [order, compareLex_eq_eq] at same
    obtain ⟨rows, columns, versions⟩ := same
    have row : a.row = b.row := Std.LawfulEqOrd.eq_of_compare rows
    have column : a.column = b.column := Std.LawfulEqOrd.eq_of_compare columns
    have version : a.version = b.version := Std.LawfulEqCmp.eq_of_compare versions
    cases a
    cases b
    simp_all

end Place

def Place.cell (place : Place) (value : Bytes) : Cell := ⟨place.column, place.version, value⟩

theorem Place.cell_before {first second : Place} (row : first.row = second.row)
    (before : order first second = .lt) (value other : Bytes) :
    (first.cell value).Before (second.cell other) := by
  rcases order_eq_lt.1 before with less | ⟨_, before⟩
  · simp [row, Std.ReflCmp.compare_self] at less
  · exact before

namespace Cell

/-- Puts a cell that asks for the latest version at the one that was assigned. -/
def placed (assigned : Version) (cell : Cell) : Cell :=
  if cell.version.isLatest then { cell with version := assigned } else cell

def leading (cells : List Cell) : List Cell := cells.takeWhile fun cell => !cell.version.isLatest

def following (cells : List Cell) : List Cell := cells.dropWhile fun cell => !cell.version.isLatest

def pass (clock : UInt64) (cells : List Cell) : UInt64 :=
  cells.foldl (fun clock cell =>
    if cell.version.isLatest then clock else max clock cell.version.next.value) clock

section Asks

variable {cell : Cell}

theorem placed_of_asks (asks : cell.version.isLatest) (given : Version) :
    cell.placed given = { cell with version := given } := if_pos asks

theorem placed_of_named (named : cell.version.isLatest = false) (given : Version) :
    cell.placed given = cell := by
  rw [placed, named]
  rfl

theorem pass_of_asks (asks : cell.version.isLatest) (clock : UInt64) (rest : List Cell) :
    pass clock (cell :: rest) = pass clock rest := by
  rw [pass, List.foldl_cons, if_pos asks]
  rfl

theorem pass_of_named (named : cell.version.isLatest = false) (clock : UInt64) (rest : List Cell) :
    pass clock (cell :: rest) = pass (max clock cell.version.next.value) rest := by
  rw [pass, List.foldl_cons, named]
  rfl

end Asks

/-- The version of all the cells of a put that ask for the latest one: what the clock shows when
the first of them is met. -/
def assigned (clock : UInt64) (cells : List Cell) : Version := ⟨pass clock (leading cells)⟩

/-- The clock after a put. An assigned version makes it tick once. -/
def clockAfter (clock : UInt64) (cells : List Cell) : UInt64 :=
  if (following cells).isEmpty then pass clock cells
  else pass (pass clock (leading cells) + 1) (following cells)

end Cell

structure FlatStore where
  cells : SortedMap Place Bytes Place.order
  clock : UInt64

namespace FlatStore

/-- Writes cells to a row in order, so the last of several at the same place stays. -/
def write (row : Bytes) (cells : List Cell) (map : SortedMap Place Bytes Place.order) :
    SortedMap Place Bytes Place.order :=
  cells.foldl (fun map cell => map.insert ⟨row, cell.column, cell.version⟩ cell.value) map

def put (store : FlatStore) (request : Put) : FlatStore where
  cells := write request.row (request.cells.map (·.placed (Cell.assigned store.clock request.cells)))
    store.cells
  clock := Cell.clockAfter store.clock request.cells

def delete (store : FlatStore) (request : Delete) : FlatStore :=
  { store with
    cells := store.cells.filter fun place _ =>
      !(place.row == request.row && request.covers place.column place.version) }

def rowCells (store : FlatStore) (row : Bytes) : List Cell :=
  store.cells.entries.filterMap fun entry =>
    if entry.1.row = row then some (entry.1.cell entry.2) else none

theorem pairwise_rowCells (store : FlatStore) (row : Bytes) :
    (store.rowCells row).Pairwise Cell.Before := by
  refine List.Pairwise.filterMap _ (fun first second before cell made other made' => ?_)
    store.cells.ascending
  obtain ⟨here, same⟩ := Option.ite_none_right_eq_some.1 made
  obtain ⟨here', same'⟩ := Option.ite_none_right_eq_some.1 made'
  cases same
  cases same'
  exact Place.cell_before (here.trans here'.symm) before _ _

def rawRow (store : FlatStore) (row : Bytes) : RowResult where
  row := row
  cells := store.rowCells row
  ordered := (store.pairwise_rowCells row).imp fun before => by
    rw [Cell.order_eq_lt.2 before]
    rfl

/-- The admitted cells of the row that are newer than a cell of the same column. -/
def newerCells (store : FlatStore) (request : Get) (cell : Cell) : List Cell :=
  (store.rowCells request.row).filter fun other =>
    other.column == cell.column && request.filter.admitsVersion other.version &&
      decide (cell.version < other.version)

/-- The admitted cells of a row, of each column the newest ones. -/
def get (store : FlatStore) (request : Get) : RowResult :=
  (store.rawRow request.row).filter fun cell =>
    request.filter.admitsColumn cell.column && request.filter.admitsVersion cell.version &&
      decide ((store.newerCells request cell).length < request.filter.maxVersions)

def rows (store : FlatStore) : SortedSet Bytes compare :=
  SortedSet.ofMembers (store.cells.keys.map (·.row))

/-- What is read of the rows in range, in ascending order, without the rows of which that is
nothing. -/
def scan (store : FlatStore) (request : Scan) : List RowResult :=
  let inside := store.rows.toList.filter request.containsRow
  (inside.map fun row => store.get { row := row, filter := request.filter }).filter (!·.isEmpty)

end FlatStore

namespace MemoryStore

/-- The entries of the nested maps, with the place of each. -/
def placedEntries (store : MemoryStore) : List (Place × Bytes) :=
  store.rows.entries.flatMap fun (row, columns) =>
    columns.entries.flatMap fun (column, versions) =>
      versions.entries.map fun (version, value) => (⟨row, column, version⟩, value)

theorem ascending_placedEntries (store : MemoryStore) :
    store.placedEntries.Pairwise fun a b => Place.order a.1 b.1 = .lt := by
  rw [placedEntries, List.pairwise_flatMap]
  constructor
  · rintro ⟨row, columns⟩ _
    dsimp only
    rw [List.pairwise_flatMap]
    constructor
    · rintro ⟨column, versions⟩ _
      refine List.pairwise_map.2 (versions.ascending.imp fun newer => ?_)
      exact Place.order_eq_lt.2 (.inr ⟨rfl, .inr ⟨rfl, Version.newestFirst_eq_lt.1 newer⟩⟩)
    · refine columns.ascending.imp fun before entry mem other mem' => ?_
      obtain ⟨_, _, rfl⟩ := List.mem_map.1 mem
      obtain ⟨_, _, rfl⟩ := List.mem_map.1 mem'
      exact Place.order_eq_lt.2 (.inr ⟨rfl, .inl before⟩)
  · refine store.rows.ascending.imp fun before entry mem other mem' => ?_
    obtain ⟨_, _, mem⟩ := List.mem_flatMap.1 mem
    obtain ⟨_, _, mem'⟩ := List.mem_flatMap.1 mem'
    obtain ⟨_, _, rfl⟩ := List.mem_map.1 mem
    obtain ⟨_, _, rfl⟩ := List.mem_map.1 mem'
    exact Place.order_eq_lt.2 (.inl before)

/-- The flat map that a memory store represents. -/
def flat (store : MemoryStore) : FlatStore where
  cells := ⟨store.placedEntries, store.ascending_placedEntries⟩
  clock := store.clock

/-- A memory store and its flat map hold the same value at every place. -/
theorem find?_flat (store : MemoryStore) (place : Place) :
    store.flat.cells.find? place = store.contents place := by
  apply Option.ext
  intro value
  rw [← SortedMap.mem_entries_iff]
  simp only [flat, placedEntries, List.mem_flatMap, List.mem_map, Prod.exists, Prod.mk.injEq,
    SortedMap.mem_entries_iff]
  constructor
  · rintro ⟨row, columns, rowHere, column, versions, columnHere, version, _, stored, rfl, rfl⟩
    exact (contents_of_find? rowHere columnHere version).trans stored
  · intro found
    obtain ⟨columns, versions, rowHere, columnHere, stored⟩ := find?_of_contents found
    exact ⟨_, columns, rowHere, _, versions, columnHere, _, _, stored, rfl, rfl⟩

end MemoryStore

end SnapshotTable
