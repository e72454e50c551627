import SnapshotTable.Data.Request

/-!
The interface of a cell store. A call is a value, so it can be recorded; its kind decides the type
of the reply. A store answers a call with a reply or an error and a next state.
-/

namespace SnapshotTable

set_option autoImplicit false

/-- A write takes place only if the newest value of a column is the expected one. -/
structure Condition where
  row : Bytes
  column : Column
  expected : Option Bytes
deriving DecidableEq

inductive StoreCall where
  | get (request : Get)
  | scan (request : Scan)
  | put (request : Put)
  | delete (request : Delete)
  | checkAndPut (condition : Condition) (request : Put)
  | checkAndDelete (condition : Condition) (request : Delete)
  | append (request : Append)
  | increment (request : Increment)
  | flush
  | close
deriving DecidableEq

namespace StoreCall

abbrev Reply : StoreCall → Type
  | get _ | append _ | increment _ => RowResult
  | scan _ => List RowResult
  | checkAndPut .. | checkAndDelete .. => Bool
  | put _ | delete _ | flush | close => Unit

/-- Plain puts and deletes are the writes; the checked ones are not counted among them. -/
def isWrite : StoreCall → Bool
  | put _ | delete _ => true
  | _ => false

end StoreCall

class CellStore (σ : Type) where
  name : σ → String
  perform : (call : StoreCall) → σ → Except StoreError call.Reply × σ

namespace CellStore

variable {σ : Type} [CellStore σ]

def get (request : Get) (store : σ) : Except StoreError RowResult × σ :=
  perform (.get request) store

def scan (request : Scan) (store : σ) : Except StoreError (List RowResult) × σ :=
  perform (.scan request) store

def getMany : List Get → σ → Except StoreError (List RowResult) × σ
  | [], store => (.ok [], store)
  | request :: rest, store =>
    match get request store with
    | (.error error, store) => (.error error, store)
    | (.ok result, store) =>
      match getMany rest store with
      | (.error error, store) => (.error error, store)
      | (.ok results, store) => (.ok (result :: results), store)

def holds (request : Get) (store : σ) : Except StoreError Bool × σ :=
  match get request store with
  | (.error error, store) => (.error error, store)
  | (.ok result, store) => (.ok (!result.isEmpty), store)

end CellStore

end SnapshotTable
