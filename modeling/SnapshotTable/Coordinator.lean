import SnapshotTable.Table.Commit

/-!
A coordinator of transactions. It hands out snapshots that exclude the unfinished and the invalid
transactions, and drives a participant, such as a table with its store, to the end of one.
-/

namespace SnapshotTable

set_option autoImplicit false

/-- What takes part in transactions under a coordinator. -/
class Participant (π : Type) where
  name : π → String
  start : Transaction → π → Except TableError Unit × π
  changes : π → Except TableError (List Bytes)
  commit : π → Except TableError Unit × π
  postCommit : π → π
  rollback : π → Except TableError Unit × π

instance {σ : Type} [CellStore σ] : Participant (Table × σ) where
  name := fun (table, store) => table.name store
  start := fun tx (table, store) =>
    let (result, table) := table.bind tx
    (result, table, store)
  changes := fun (table, _) => table.changes
  commit := fun (table, store) =>
    let (result, store) := table.commit store
    (result, table, store)
  postCommit := fun (table, store) => (table.unbind, store)
  rollback := fun (table, store) => table.rollback store

structure Coordinator where
  nextPointer : UInt64 := 1
  inProgress : VersionSet := .empty
  invalid : VersionSet := .empty
  committed : List (Version × List Bytes) := []
deriving DecidableEq

namespace Coordinator

/-- The first write pointer is at least one, so that something lies below it. -/
def startingAt (first : UInt64) : Coordinator := { nextPointer := max first 1 }

/-- Hands out the next write pointer, with everything below it to read but the transactions that
are in progress or invalid. -/
def begin (coordinator : Coordinator) : Transaction × Coordinator :=
  let pointer : Version := ⟨coordinator.nextPointer⟩
  let excluded := coordinator.inProgress.toList ++ coordinator.invalid.toList
  (Transaction.new ⟨pointer.value - 1⟩ pointer excluded,
    { coordinator with
      nextPointer := coordinator.nextPointer + 1
      inProgress := SortedSet.add coordinator.inProgress pointer })

variable {π : Type} [Participant π]

/-- Rolls a participant back. A transaction whose rollback fails in any way is invalid. -/
def abort (coordinator : Coordinator) (tx : Transaction) (participant : π) :
    Except TableError Unit × π × Coordinator :=
  let (result, participant) := Participant.rollback participant
  let coordinator :=
    { coordinator with inProgress := coordinator.inProgress.erase tx.writePointer }
  match result with
  | .ok () => (.ok (), participant, coordinator)
  | .error error =>
    (.error error, participant,
      { coordinator with invalid := SortedSet.add coordinator.invalid tx.writePointer })

/-- Commits a participant and records its changes. If the commit fails, the transaction is aborted
and the commit's error is the result. -/
def commit (coordinator : Coordinator) (tx : Transaction) (participant : π) :
    Except TableError Unit × π × Coordinator :=
  match Participant.changes participant with
  | .error error => (.error error, participant, coordinator)
  | .ok changes =>
    match Participant.commit participant with
    | (.error error, participant) =>
      let (_, participant, coordinator) := coordinator.abort tx participant
      (.error error, participant, coordinator)
    | (.ok (), participant) =>
      (.ok (), Participant.postCommit participant,
        { coordinator with
          inProgress := coordinator.inProgress.erase tx.writePointer
          committed := coordinator.committed ++ [(tx.writePointer, changes)] })

/-- The recorded changes of a committed transaction; of several records the first counts. -/
def changesOf? (coordinator : Coordinator) (writePointer : Version) : Option (List Bytes) :=
  (coordinator.committed.find? (·.1 == writePointer)).map (·.2)

end Coordinator

end SnapshotTable
