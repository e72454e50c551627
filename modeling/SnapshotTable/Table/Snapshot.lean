import SnapshotTable.Transaction.Descriptor

/-!
Requests as a transaction makes them. Reads are held to the snapshot, writes are stamped with the
write pointer, and the write that undoes another names exact versions. Each of them carries the
transaction's descriptor.
-/

namespace SnapshotTable.Transaction

set_option autoImplicit false

/-- Lowers the ceiling to the read pointer and adds the excluded versions. -/
def restrict (tx : Transaction) (filter : Filter) : Filter :=
  { filter with
    ceiling := some (filter.ceiling.elim tx.readPointer (min · tx.readPointer))
    excluded := SortedSet.addAll filter.excluded tx.excluded.toList }

theorem admitsVersion_restrict (tx : Transaction) (filter : Filter) (version : Version) :
    (tx.restrict filter).admitsVersion version =
      (filter.admitsVersion version && tx.sees version) := by
  have excluded : (tx.restrict filter).excluded.contains version =
      (tx.excludes version || filter.excluded.contains version) := by
    rw [restrict, SortedSet.contains_addAll, excludes, ← SortedSet.contains_eq_contains_toList]
  have ceiling : (tx.restrict filter).ceiling.all (fun ceiling => decide (version ≤ ceiling)) =
      (filter.ceiling.all (fun ceiling => decide (version ≤ ceiling)) &&
        decide (version ≤ tx.readPointer)) := by
    cases own : filter.ceiling with
    | none => simp [restrict, own]
    | some lower => simp [restrict, own, Version.le_min]
  rw [Filter.admitsVersion, Filter.admitsVersion, sees, excluded, ceiling, Bool.not_or]
  generalize decide (version ≤ tx.readPointer) = below
  generalize tx.excludes version = hidden
  cases below <;> cases hidden <;> simp

def snapshotGet (tx : Transaction) (request : Get) : Except CodecError Get :=
  Descriptor.attach tx { request with filter := tx.restrict request.filter }

def snapshotScan (tx : Transaction) (request : Scan) : Except CodecError Scan :=
  Descriptor.attach tx { request with filter := tx.restrict request.filter }

/-- Reads what a row holds below the write pointer, whether the transaction sees it or not. -/
def preImageGet (tx : Transaction) (row : Bytes) (maxVersions : Nat) : Except CodecError Get :=
  Descriptor.attach tx
    { row := row
      filter := { ceiling := some tx.writePointer.previous, maxVersions := maxVersions } }

def visiblePart (tx : Transaction) (result : RowResult) : RowResult :=
  result.filter fun cell => tx.sees cell.version

def stampPut (tx : Transaction) (put : Put) : Except CodecError Put :=
  Descriptor.attach tx
    { put with
      timestamp := tx.writePointer
      cells := put.cells.map fun cell => { cell with version := tx.writePointer } }

/-- A scope that names one version is widened to its column. -/
def stampScope : Scope → Scope
  | .version column _ => .column column
  | scope => scope

def stampDelete (tx : Transaction) (delete : Delete) : Except CodecError Delete :=
  Descriptor.attach tx
    { delete with timestamp := tx.writePointer, scopes := delete.scopes.map stampScope }

def undoPut (tx : Transaction) (put : Put) : Except CodecError Delete :=
  Descriptor.attach tx
    { row := put.row
      scopes := put.cells.map fun cell => .version cell.column cell.version
      durability := put.durability }

/-- Writes the cells of an undo image back at their own versions. -/
def undoDelete (tx : Transaction) (image : RowResult) : Except CodecError (Option Put) :=
  if image.isEmpty then .ok none
  else some <$> Descriptor.attach tx ({ row := image.row, cells := image.cells } : Put)

end SnapshotTable.Transaction
