import SnapshotTable.Data.Counter
import SnapshotTable.Store.Call
import SnapshotTable.Store.Columns

/-!
A cell store in memory. `cell?` views it as a flat map from row, column and version to value. A
clock hands out versions and stays ahead of every version written with an explicit number, as long
as it does not wrap around. Without automatic flushing, puts and deletes wait in a buffer.
-/

namespace SnapshotTable

set_option autoImplicit false

abbrev Rows := SortedMap Bytes Columns compare

structure StoreConfig where
  autoFlush : Bool := true
  writeBufferSize : Nat := 1024
deriving DecidableEq

structure MemoryStore where
  name : String := "memory"
  config : StoreConfig := {}
  rows : Rows := .empty
  buffer : List Mutation := []
  clock : UInt64 := 1
  closed : Bool := false
deriving DecidableEq

namespace MemoryStore

instance : Inhabited MemoryStore := ⟨{}⟩

def cell? (store : MemoryStore) (row : Bytes) (column : Column) (version : Version) :
    Option Bytes := do
  let columns ← store.rows.find? row
  columns.cell? column version

def rowCount (store : MemoryStore) : Nat := store.rows.size

def bufferedCount (store : MemoryStore) : Nat := store.buffer.length

def rawRow (store : MemoryStore) (row : Bytes) : RowResult :=
  .ofCells row ((store.rows.find? row).elim [] Columns.all)

def newest? (store : MemoryStore) (row : Bytes) (column : Column) : Option Bytes := do
  let columns ← store.rows.find? row
  columns.newest? column

def tick (store : MemoryStore) : Version × MemoryStore :=
  (⟨store.clock⟩, { store with clock := store.clock + 1 })

def passVersion (store : MemoryStore) (version : Version) : MemoryStore :=
  { store with clock := max store.clock version.next.value }

/-- The version at which a cell is stored. A cell that asks for the latest version gets the one
already assigned to its put, or else a new one. -/
def resolve (store : MemoryStore) (version : Version) (assigned : Option Version) :
    Version × Option Version × MemoryStore :=
  if version.isLatest then
    match assigned with
    | some given => (given, assigned, store)
    | none =>
      let (given, store) := store.tick
      (given, some given, store)
  else (version, assigned, store.passVersion version)

def insertCell (store : MemoryStore) (row : Bytes) (column : Column) (version : Version)
    (value : Bytes) : MemoryStore :=
  { store with
    rows := store.rows.alter row fun columns =>
      some ((columns.getD .empty).insert column version value) }

theorem cell?_insertCell (store : MemoryStore) (row : Bytes) (column : Column) (version : Version)
    (value : Bytes) (otherRow : Bytes) (other : Column) (otherVersion : Version) :
    (store.insertCell row column version value).cell? otherRow other otherVersion =
      if otherRow = row ∧ other = column ∧ otherVersion = version then some value
      else store.cell? otherRow other otherVersion := by
  simp only [cell?, insertCell, SortedMap.find?_alter_eq]
  by_cases same : otherRow = row
  · subst same
    cases store.rows.find? otherRow <;> simp [Columns.cell?_insert]
    rfl
  · simp [same]

/-- Writes cells in order, so the last of several at the same place stays. -/
def writeCells (row : Bytes) : List Cell → (assigned : Option Version) → MemoryStore → MemoryStore
  | [], _, store => store
  | cell :: rest, assigned, store =>
    let (version, assigned, store) := store.resolve cell.version assigned
    writeCells row rest assigned (store.insertCell row cell.column version cell.value)

def applyPut (store : MemoryStore) (put : Put) : MemoryStore :=
  writeCells put.row put.cells none
    { store with rows := store.rows.alter put.row fun columns => some (columns.getD .empty) }

def applyDelete (store : MemoryStore) (delete : Delete) : MemoryStore :=
  { store with
    rows := store.rows.alter delete.row fun columns => do
      let kept := (← columns).remove delete
      if kept.isEmpty then none else some kept }

theorem cell?_applyDelete (store : MemoryStore) (delete : Delete) (row : Bytes) (column : Column)
    (version : Version) :
    (store.applyDelete delete).cell? row column version =
      if row = delete.row ∧ delete.covers column version then none
      else store.cell? row column version := by
  simp only [cell?, applyDelete, SortedMap.find?_alter_eq]
  by_cases same : row = delete.row
  · subst same
    cases store.rows.find? delete.row with
    | none => simp
    | some columns =>
      have removed := Columns.cell?_remove columns delete column version
      simp only [if_true, true_and, bind, Option.bind_some, ← removed]
      split
      · rename_i isEmpty
        rw [Columns.cell?, SortedMap.find?_of_isEmpty isEmpty]
        rfl
      · rfl
  · simp [same]

def apply (store : MemoryStore) : Mutation → MemoryStore
  | .put write => store.applyPut write
  | .delete removal => store.applyDelete removal

def flushBuffer (store : MemoryStore) : MemoryStore :=
  store.buffer.foldl apply { store with buffer := [] }

/-- Applies a mutation, or buffers it; a buffer that is full is flushed. -/
def accept (store : MemoryStore) (mutation : Mutation) : MemoryStore :=
  if store.config.autoFlush then store.apply mutation
  else
    let store := { store with buffer := store.buffer ++ [mutation] }
    if store.config.writeBufferSize ≤ store.buffer.length then store.flushBuffer else store

def readRow (row : Bytes) (columns : Columns) (filter : Filter) : RowResult :=
  .ofCells row (columns.read filter)

def get (store : MemoryStore) (request : Get) : RowResult :=
  match store.rows.find? request.row with
  | some columns => readRow request.row columns request.filter
  | none => .empty request.row

/-- The rows in range, in order. Rows of which nothing is read are left out. -/
def scan (store : MemoryStore) (request : Scan) : List RowResult :=
  let rows := store.rows.entries.filter fun entry => request.containsRow entry.1
  (rows.map fun entry => readRow entry.1 entry.2 request.filter).filter (!·.isEmpty)

def applyIf (store : MemoryStore) (condition : Condition) (mutation : Mutation) :
    Bool × MemoryStore :=
  if store.newest? condition.row condition.column = condition.expected then
    (true, store.apply mutation)
  else (false, store)

/-- Writes values derived from the newest ones at one new version. A column named twice is derived
from the same stored value twice. -/
def updateColumns {α : Type} (store : MemoryStore) (row : Bytes) (columns : List (Column × α))
    (derive : Option Bytes → α → Except StoreError Bytes) :
    Except StoreError RowResult × MemoryStore :=
  let (version, store) := store.tick
  match columns.mapM (fun (column, change) => do
      return (⟨column, version, ← derive (store.newest? row column) change⟩ : Cell)) with
  | .error error => (.error error, store)
  | .ok cells =>
    (.ok (.ofCells row cells),
      store.applyPut { row := row, timestamp := version, cells := cells })

def appended (current : Option Bytes) (suffix : Bytes) : Except StoreError Bytes :=
  .ok (current.getD [] ++ suffix)

/-- An absent counter counts from zero. -/
def incremented (current : Option Bytes) (amount : Int64) : Except StoreError Bytes := do
  let count ← current.elim (.ok 0) Counter.decode
  match Counter.add? count amount with
  | some sum => return Counter.encode sum
  | none => throw (.counterOverflow count.toInt amount.toInt)

def performOpen (store : MemoryStore) :
    (call : StoreCall) → Except StoreError call.Reply × MemoryStore
  | .get request => (.ok (store.get request), store)
  | .scan request => (.ok (store.scan request), store)
  | .put request =>
    if request.isEmpty then (.error .emptyPut, store) else (.ok (), store.accept (.put request))
  | .delete request => (.ok (), store.accept (.delete request))
  | .checkAndPut condition request =>
    if condition.row ≠ request.row then (.error .checkedOtherRow, store)
    else if request.isEmpty then (.error .emptyPut, store)
    else
      let (held, store) := store.applyIf condition (.put request)
      (.ok held, store)
  | .checkAndDelete condition request =>
    if condition.row ≠ request.row then (.error .checkedOtherRow, store)
    else
      let (held, store) := store.applyIf condition (.delete request)
      (.ok held, store)
  | .append request => store.updateColumns request.row request.columns appended
  | .increment request => store.updateColumns request.row request.columns incremented
  | .flush => (.ok (), store.flushBuffer)
  | .close => (.ok (), { store.flushBuffer with closed := true })

/-- A closed store refuses every call but another close, which changes nothing. -/
def perform (call : StoreCall) (store : MemoryStore) :
    Except StoreError call.Reply × MemoryStore :=
  if store.closed then
    match call with
    | .close => (.ok (), store)
    | _ => (.error .closed, store)
  else store.performOpen call

instance : CellStore MemoryStore := ⟨name, perform⟩

end MemoryStore

end SnapshotTable
