import SnapshotTable.Table.Commit
import SnapshotTable.Table.Reading
import SnapshotTable.Table.Writing

/-!
Everything that can be asked of a table, as a value, so that a sequence of calls is a list.
-/

namespace SnapshotTable

set_option autoImplicit false

inductive TableCall where
  | bind (tx : Transaction)
  | get (request : Get)
  | holds (request : Get)
  | getMany (requests : List Get)
  | scan (request : Scan)
  | scanFamily (family : Bytes)
  | scanColumn (column : Column)
  | put (request : Put)
  | putMany (requests : List Put)
  | delete (request : Delete)
  | deleteMany (requests : List Delete)
  | mutateRow (request : RowMutations)
  | checkAndPut (condition : Condition) (request : Put)
  | checkAndDelete (condition : Condition) (request : Delete)
  | append (request : Append)
  | increment (request : Increment)
  | incrementColumn (row : Bytes) (column : Column) (amount : Int64)
  | allowNonTransactional (allow : Bool)
  | changeDescriptor
  | changes
  | commit
  | postCommit
  | rollback
deriving DecidableEq

namespace TableCall

abbrev Reply : TableCall → Type
  | get _ | append _ | increment _ => RowResult
  | getMany _ | scan _ | scanFamily _ | scanColumn _ => List RowResult
  | holds _ | checkAndPut .. | checkAndDelete .. => Bool
  | incrementColumn .. => Int64
  | changeDescriptor => Bytes
  | changes => List Bytes
  | _ => Unit

def isTransactional : TableCall → Bool
  | get _ | holds _ | getMany _ | scan _ | scanFamily _ | scanColumn _
  | put _ | putMany _ | delete _ | deleteMany _ | mutateRow _
  | changeDescriptor | changes | commit | rollback => true
  | _ => false

end TableCall

namespace Table

variable {σ : Type} [CellStore σ]

def perform (table : Table) (store : σ) :
    (call : TableCall) → Except TableError call.Reply × Table × σ
  | .bind tx =>
    let (result, table) := table.bind tx
    (result, table, store)
  | .get request => table.get request store
  | .holds request => table.holds request store
  | .getMany requests => table.getMany requests store
  | .scan request => table.scan request store
  | .scanFamily family => table.scanSelected (.family family) store
  | .scanColumn column => table.scanSelected (.column column) store
  | .put request => table.put request store
  | .putMany requests => table.putMany requests store
  | .delete request => table.delete request store
  | .deleteMany requests => table.deleteMany requests store
  | .mutateRow request => table.mutateRow request store
  | .checkAndPut condition request =>
    let (result, store) := table.bypass "check_and_put" (.checkAndPut condition request) store
    (result, table, store)
  | .checkAndDelete condition request =>
    let (result, store) :=
      table.bypass "check_and_delete" (.checkAndDelete condition request) store
    (result, table, store)
  | .append request =>
    let (result, store) := table.bypass "append" (.append request) store
    (result, table, store)
  | .increment request =>
    let (result, store) := table.bypass "increment" (.increment request) store
    (result, table, store)
  | .incrementColumn row column amount =>
    let (result, store) := table.incrementColumn row column amount store
    (result, table, store)
  | .allowNonTransactional allow =>
    (.ok (), { table with config := { table.config with allowNonTransactional := allow } }, store)
  | .changeDescriptor => (table.changeDescriptor, table, store)
  | .changes => (table.changes, table, store)
  | .commit =>
    let (result, store) := table.commit store
    (result, table, store)
  | .postCommit => (.ok (), table.unbind, store)
  | .rollback => table.rollback store

end Table

end SnapshotTable
