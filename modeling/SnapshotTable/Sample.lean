import SnapshotTable.Store.Memory
import SnapshotTable.Table.Call

/-!
Small stores and writes for trying tables out. They keep to the family `f` and, where no other is
named, to the qualifier `c`.
-/

namespace SnapshotTable.Sample

set_option autoImplicit false

def family : Bytes := [0x66]

def column : Column := ⟨family, [0x63]⟩

def columnOf (qualifier : String) : Column := ⟨family, Bytes.ofText qualifier⟩

structure SeedCell where
  row : String
  column : Column := column
  version : UInt64
  value : Bytes
deriving DecidableEq

def SeedCell.put (cell : SeedCell) : Put :=
  ({ row := Bytes.ofText cell.row, timestamp := ⟨cell.version⟩ } : Put).add cell.column cell.value

def store (seeds : List SeedCell) : MemoryStore :=
  seeds.foldl (fun store seed => (store.perform (.put seed.put)).2) {}

def dump (store : MemoryStore) : Except StoreError (List RowResult) :=
  (store.perform (.scan { filter := { maxVersions := 4294967295 } })).1

inductive RowWrite where
  | put (row qualifier : String) (value : Bytes)
  | deleteRow (row : String)
  | deleteColumn (row qualifier : String)
  | deleteFamily (row : String)
deriving DecidableEq

namespace RowWrite

def call : RowWrite → TableCall
  | put row qualifier value =>
    .put (({ row := Bytes.ofText row } : Put).add (columnOf qualifier) value)
  | deleteRow row => .delete { row := Bytes.ofText row }
  | deleteColumn row qualifier =>
    .delete { row := Bytes.ofText row, scopes := [.column (columnOf qualifier)] }
  | deleteFamily row => .delete { row := Bytes.ofText row, scopes := [.family family] }

end RowWrite

variable {σ : Type} [CellStore σ]

def apply (table : Table) (write : RowWrite) (store : σ) :
    Except TableError write.call.Reply × Table × σ :=
  table.perform store write.call

def readValue (table : Table) (row : Bytes) (column : Column) (store : σ) :
    Except TableError (Option Bytes) × Table × σ :=
  let (result, table, store) :=
    table.get { row := row, filter := { selectors := [.column column] } } store
  (result.map (·.value? column), table, store)

end SnapshotTable.Sample
