import SnapshotTable.Data.Counter
import SnapshotTable.Table.Basic

/-!
Writes through a table. They are stamped, delete reads its row first, and all wait in the log until
commit; a batch enters the log whole or not at all. Some store calls have no transactional form;
a table passes them on only if its configuration allows it.
-/

namespace SnapshotTable.Table

set_option autoImplicit false

variable {σ : Type} [CellStore σ]

def preparePut (tx : Transaction) (put : Put) : Except TableError PendingEntry :=
  if put.isEmpty then .error .emptyPut
  else (.put <$> tx.stampPut put).mapError .codec

/-- Reads the row that is to be removed from, for the case of a rollback. -/
def prepareDelete (tx : Transaction) (maxVersions : Nat) (delete : Delete) (store : σ) :
    Except TableError PendingEntry × σ :=
  match tx.preImageGet delete.row maxVersions with
  | .error error => (.error (.codec error), store)
  | .ok request =>
    match CellStore.get request store with
    | (.error error, store) => (.error (.store error), store)
    | (.ok image, store) =>
      match tx.stampDelete delete with
      | .error error => (.error (.codec error), store)
      | .ok stamped => (.ok (.delete stamped (tx.visiblePart image) image), store)

def prepare (table : Table) (mutation : Mutation) (store : σ) :
    Except TableError PendingEntry × σ :=
  match table.bound with
  | .error error => (.error error, store)
  | .ok tx =>
    match mutation with
    | .put request => (preparePut tx request, store)
    | .delete request => prepareDelete tx table.config.preImageMaxVersions request store

def prepareAll (table : Table) : List Mutation → σ → Except TableError (List PendingEntry) × σ
  | [], store => (.ok [], store)
  | mutation :: rest, store =>
    match table.prepare mutation store with
    | (.error error, store) => (.error error, store)
    | (.ok entry, store) =>
      match prepareAll table rest store with
      | (.error error, store) => (.error error, store)
      | (.ok entries, store) => (.ok (entry :: entries), store)

/-- Adds mutations to the log once all of them are prepared. Each of them needs the transaction to be
prepared, so that without mutations nothing asks for it. -/
def write (table : Table) (mutations : List Mutation) (store : σ) :
    Except TableError Unit × Table × σ :=
  match table.prepareAll mutations store with
  | (.error error, store) => (.error error, table, store)
  | (.ok entries, store) => (.ok (), table.extendLog entries, store)

def put (table : Table) (request : Put) (store : σ) : Except TableError Unit × Table × σ :=
  table.write [.put request] store

def delete (table : Table) (request : Delete) (store : σ) : Except TableError Unit × Table × σ :=
  table.write [.delete request] store

def putMany (table : Table) (requests : List Put) (store : σ) :
    Except TableError Unit × Table × σ :=
  table.write (requests.map .put) store

def deleteMany (table : Table) (requests : List Delete) (store : σ) :
    Except TableError Unit × Table × σ :=
  table.write (requests.map .delete) store

def mutateRow (table : Table) (request : RowMutations) (store : σ) :
    Except TableError Unit × Table × σ :=
  table.write request.mutations store

def bypass (table : Table) (operation : String) (call : StoreCall) (store : σ) :
    Except TableError call.Reply × σ :=
  if table.config.allowNonTransactional then
    let (reply, store) := CellStore.perform call store
    (reply.mapError .store, store)
  else (.error (.unsupported operation), store)

def counterOf (column : Column) (result : RowResult) : Except TableError Int64 :=
  match result.value? column with
  | some value => (Counter.decode value).mapError .store
  | none => .error .noCounter

def incrementColumn (table : Table) (row : Bytes) (column : Column) (amount : Int64) (store : σ) :
    Except TableError Int64 × σ :=
  let call := StoreCall.increment { row := row, columns := [(column, amount)] }
  let (result, store) := table.bypass "increment_column_value" call store
  (result.bind (counterOf column), store)

end SnapshotTable.Table
