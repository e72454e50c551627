import SnapshotTable.Table.Basic

/-!
Reads through a table. A read sees the snapshot of the bound transaction, so it does not see the
writes that wait in the log.
-/

namespace SnapshotTable.Table

set_option autoImplicit false

variable {σ : Type} [CellStore σ]

/-- Sends a request to the store if it could be made, and records its gets if it succeeds. -/
def reading {ρ α : Type} (table : Table) (request : Except TableError ρ) (gets : ρ → List Get)
    (perform : ρ → σ → Except StoreError α × σ) (store : σ) :
    Except TableError α × Table × σ :=
  match request with
  | .error error => (.error error, table, store)
  | .ok request =>
    match perform request store with
    | (.error error, store) => (.error (.store error), table, store)
    | (.ok reply, store) => (.ok reply, table.recordReads (gets request), store)

def get (table : Table) (request : Get) (store : σ) : Except TableError RowResult × Table × σ :=
  table.reading (table.made Transaction.snapshotGet request) (fun get => [get]) CellStore.get store

def holds (table : Table) (request : Get) (store : σ) : Except TableError Bool × Table × σ :=
  table.reading (table.made Transaction.snapshotGet request) (fun get => [get]) CellStore.holds
    store

def getMany (table : Table) (requests : List Get) (store : σ) :
    Except TableError (List RowResult) × Table × σ :=
  table.reading (table.made (fun tx => List.mapM tx.snapshotGet) requests) id CellStore.getMany
    store

def scan (table : Table) (request : Scan) (store : σ) :
    Except TableError (List RowResult) × Table × σ :=
  table.reading (table.made Transaction.snapshotScan request) (fun _ => []) CellStore.scan store

def scanSelected (table : Table) (selector : Selector) (store : σ) :
    Except TableError (List RowResult) × Table × σ :=
  table.scan { filter := { selectors := [selector] } } store

end SnapshotTable.Table
