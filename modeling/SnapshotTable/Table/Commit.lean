import SnapshotTable.Table.Basic

/-!
The end of a transaction. Commit sends the logged writes to the store in order and leaves the table
as it is, so it can be tried again. Rollback sends the opposite of every logged write, the newest
first, goes on past failures, and always leaves the table unbound.
-/

namespace SnapshotTable

set_option autoImplicit false

namespace PendingEntry

def commitCall? : PendingEntry → Option StoreCall
  | get _ => none
  | put request => some (.put request)
  | delete request _ _ => some (.delete request)

/-- The store call that undoes the write, whether or not it was made. A delete that found nothing
needs none. -/
def undoCall? (tx : Transaction) : PendingEntry → Except CodecError (Option StoreCall)
  | get _ => .ok none
  | put request => return some (.delete (← tx.undoPut request))
  | delete _ _ undoImage => return (← tx.undoDelete undoImage).map .put

end PendingEntry

namespace Table

variable {σ : Type} [CellStore σ]

/-- Makes the logged writes in order, up to the first failure, and then flushes. -/
def replay : PendingLog → σ → Except StoreError Unit × σ
  | [], store => CellStore.perform .flush store
  | entry :: rest, store =>
    match entry.commitCall? with
    | none => replay rest store
    | some call =>
      match CellStore.perform call store with
      | (.error error, store) => (.error error, store)
      | (.ok _, store) => replay rest store

def commit (table : Table) (store : σ) : Except TableError Unit × σ :=
  match table.binding with
  | none => (.error .notBound, store)
  | some binding =>
    let (result, store) := replay binding.log store
    (result.mapError .store, store)

def compensate (tx : Transaction) (entry : PendingEntry) (store : σ) : Option TableError × σ :=
  match entry.undoCall? tx with
  | .error error => (some (.codec error), store)
  | .ok none => (none, store)
  | .ok (some call) =>
    match CellStore.perform call store with
    | (.error error, store) => (some (.store error), store)
    | (.ok _, store) => (none, store)

/-- Undoes writes in the given order and then flushes; gives all the failures in order. -/
def compensateAll (tx : Transaction) : List PendingEntry → σ → List TableError × σ
  | [], store =>
    match CellStore.perform .flush store with
    | (.error error, store) => ([.store error], store)
    | (.ok _, store) => ([], store)
  | entry :: rest, store =>
    let (failure, store) := compensate tx entry store
    let (failures, store) := compensateAll tx rest store
    (failure.toList ++ failures, store)

def rollbackResult : List TableError → Except TableError Unit
  | [] => .ok ()
  | first :: rest => .error (.rollbackPartialFailure (rest.length + 1) first)

def rollback (table : Table) (store : σ) : Except TableError Unit × Table × σ :=
  match table.binding with
  | none => (.error .notBound, table, store)
  | some binding =>
    let (failures, store) := compensateAll binding.tx binding.log.reverse store
    (rollbackResult failures, table.unbind, store)

/-- The descriptor of the bound transaction, under which its changes are known. -/
def changeDescriptor (table : Table) : Except TableError Bytes :=
  match table.bound with
  | .error error => .error error
  | .ok tx => (Descriptor.encode tx).mapError .codec

def changes (table : Table) : Except TableError (List Bytes) :=
  table.changeDescriptor.map ([·])

/-- Flushes and closes the store; the table's own transaction is given up. -/
def close (store : σ) : Except TableError Unit × σ :=
  match CellStore.perform .flush store with
  | (.error error, store) => (.error (.store error), store)
  | (.ok _, store) =>
    let (result, store) := CellStore.perform .close store
    (result.mapError .store, store)

end Table

end SnapshotTable
