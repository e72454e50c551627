import SnapshotTable.Store.Call

/-!
A layer around a store that records every call and makes chosen calls fail. A call that fails here
does not reach the store inside.
-/

namespace SnapshotTable

set_option autoImplicit false

/-- Writes are numbered from zero in the order in which they arrive, failing ones included. -/
structure FaultyStore (σ : Type) where
  inner : σ
  calls : List StoreCall := []
  writesSeen : Nat := 0
  failingWrites : List Nat := []
  failAllWrites : Bool := false
  failReads : Bool := false
  failFlush : Bool := false

namespace FaultyStore

variable {σ : Type}

def injected (kind : String) : StoreError := .unavailable ("injected " ++ kind ++ " failure")

def failWrite (store : FaultyStore σ) (number : Nat) : FaultyStore σ :=
  { store with failingWrites := number :: store.failingWrites }

def writes (store : FaultyStore σ) : List StoreCall := store.calls.filter (·.isWrite)

def clearCalls (store : FaultyStore σ) : FaultyStore σ := { store with calls := [] }

def fault? (store : FaultyStore σ) : StoreCall → Option StoreError
  | .get _ | .scan _ => if store.failReads then some (injected "read") else none
  | .put _ | .delete _ =>
    if store.failAllWrites || store.failingWrites.contains store.writesSeen then
      some (injected "write")
    else none
  | .flush => if store.failFlush then some (injected "flush") else none
  | _ => none

def record (store : FaultyStore σ) (call : StoreCall) : FaultyStore σ :=
  { store with
    calls := store.calls ++ [call]
    writesSeen := if call.isWrite then store.writesSeen + 1 else store.writesSeen }

def perform [CellStore σ] (call : StoreCall) (store : FaultyStore σ) :
    Except StoreError call.Reply × FaultyStore σ :=
  match store.fault? call with
  | some error => (.error error, store.record call)
  | none =>
    let (reply, inner) := CellStore.perform call store.inner
    (reply, { store.record call with inner := inner })

instance [CellStore σ] : CellStore (FaultyStore σ) where
  name := fun store => CellStore.name store.inner
  perform := perform

end FaultyStore

end SnapshotTable
