import SnapshotTable.Store.Call
import SnapshotTable.Table.Error
import SnapshotTable.Table.Log
import SnapshotTable.Table.Snapshot

/-!
Transactional tables over a cell store. A table has at most one transaction bound to it, and a log
only while it has one.
-/

namespace SnapshotTable

set_option autoImplicit false

structure TableConfig where
  name : Option String := none
  allowNonTransactional : Bool := false
  preImageMaxVersions : Nat := 4294967295
  recordReads : Bool := false
deriving DecidableEq

structure Binding where
  tx : Transaction
  log : PendingLog := []
deriving DecidableEq

structure Table where
  config : TableConfig := {}
  binding : Option Binding := none
deriving DecidableEq

inductive TableState where
  | unbound
  | boundEmpty
  | boundDirty
deriving DecidableEq

namespace Table

variable {σ : Type} [CellStore σ]

def transaction? (table : Table) : Option Transaction := table.binding.map (·.tx)

def log (table : Table) : PendingLog := table.binding.elim [] (·.log)

def pendingCount (table : Table) : Nat := table.log.writeCount

def changedRows (table : Table) : List Bytes := table.log.changedRows

def readSet (table : Table) : List Get := table.log.reads

def state (table : Table) : TableState :=
  match table.binding with
  | none => .unbound
  | some binding => if binding.log.writeCount = 0 then .boundEmpty else .boundDirty

def name (table : Table) (store : σ) : String := table.config.name.getD (CellStore.name store)

def bound (table : Table) : Except TableError Transaction :=
  match table.binding with
  | some binding => .ok binding.tx
  | none => .error .notBound

/-- Binds a valid transaction, with an empty log, to a table that has none. -/
def bind (table : Table) (tx : Transaction) : Except TableError Unit × Table :=
  match table.binding with
  | some binding => (.error (.alreadyBound binding.tx.writePointer), table)
  | none =>
    match tx.validate with
    | .error error => (.error (.codec error), table)
    | .ok () => (.ok (), { table with binding := some { tx := tx } })

def unbind (table : Table) : Table := { table with binding := none }

def extendLog (table : Table) (entries : List PendingEntry) : Table :=
  { table with
    binding := table.binding.map fun binding =>
      { binding with log := binding.log ++ entries } }

def recordReads (table : Table) (requests : List Get) : Table :=
  if table.config.recordReads then table.extendLog (requests.map .get) else table

def made {α ρ : Type} (table : Table) (make : Transaction → α → Except CodecError ρ)
    (request : α) : Except TableError ρ :=
  match table.bound with
  | .error error => .error error
  | .ok tx => (make tx request).mapError .codec

end Table

end SnapshotTable
