import SnapshotTable.Proofs.Contents
import SnapshotTable.Table.Snapshot

/-!
What a transaction makes of a write, in the flat view. A put changes the cells at the write pointer,
a delete removes what its columns hold up to it, and the versions that the caller gave do not count.
-/

namespace SnapshotTable

set_option autoImplicit false

namespace Descriptor

variable {ρ : Type} [Attributed ρ]

theorem attach_eq (tx : Transaction) (request : ρ) : attach tx request =
    tx.validate.map fun _ =>
      Attributed.setAttribute request attributeKey (wire tx).write := by
  cases valid : tx.validate <;> simp [attach, encode, valid, bind, Except.bind, pure, Except.pure,
    Except.map]

theorem attach_ok {tx : Transaction} {request attached : ρ}
    (done : attach tx request = .ok attached) :
    attached = Attributed.setAttribute request attributeKey (wire tx).write := by
  rw [attach_eq] at done
  cases valid : tx.validate with
  | error error =>
    rw [valid] at done
    cases done
  | ok _ =>
    rw [valid] at done
    exact (Except.ok.inj done).symm

theorem attach_of_valid {tx : Transaction} (valid : tx.validate = .ok ()) (request : ρ) :
    attach tx request = .ok (Attributed.setAttribute request attributeKey (wire tx).write) := by
  rw [attach_eq, valid]
  rfl

end Descriptor

/-- The value that a put gives a column; of several cells of the column the last counts. -/
def Put.valueFor? (put : Put) (column : Column) : Option Bytes :=
  (put.cells.reverse.find? fun cell => cell.column = column).map (·.value)

/-- A delete names the columns of its scopes, and without scopes every column. A scope that names
one version names its column. -/
def Delete.names (delete : Delete) (column : Column) : Bool :=
  delete.scopes.isEmpty || delete.scopes.any fun
    | .family named => named == column.family
    | .column named => named == column
    | .version named _ => named == column

/-- What a write is to change when it is made at a write pointer. -/
def Mutation.changeAt (writePointer : Version) : Mutation → Place → Option (Option Bytes)
  | put write, place =>
    if place.row = write.row ∧ place.version = writePointer then
      (write.valueFor? place.column).map some
    else none
  | delete removal, place =>
    if place.row = removal.row ∧ place.version ≤ writePointer ∧ removal.names place.column then
      some none
    else none

theorem Mutation.version_of_changeAt {writePointer : Version} {write : Mutation} {place : Place}
    {value : Bytes} (written : write.changeAt writePointer place = some (some value)) :
    place.version = writePointer := by
  cases write with
  | put request =>
    simp only [changeAt] at written
    split at written
    · rename_i here
      exact here.2
    · cases written
  | delete removal =>
    simp only [changeAt] at written
    split at written <;> cases written

namespace Transaction

variable {tx : Transaction}

theorem stampPut_ok {put stamped : Put} (done : tx.stampPut put = .ok stamped) :
    stamped.row = put.row ∧
      stamped.cells = put.cells.map fun cell => { cell with version := tx.writePointer } := by
  rw [Descriptor.attach_ok done]
  exact ⟨rfl, rfl⟩

theorem stampDelete_ok {delete stamped : Delete} (done : tx.stampDelete delete = .ok stamped) :
    stamped.row = delete.row ∧ stamped.timestamp = tx.writePointer ∧
      stamped.scopes = delete.scopes.map stampScope := by
  rw [Descriptor.attach_ok done]
  exact ⟨rfl, rfl, rfl⟩

theorem preImageGet_ok {row : Bytes} {maxVersions : Nat} {request : Get}
    (done : tx.preImageGet row maxVersions = .ok request) :
    request.row = row ∧ request.filter =
      { ceiling := some tx.writePointer.previous, maxVersions := maxVersions } := by
  rw [Descriptor.attach_ok done]
  exact ⟨rfl, rfl⟩

theorem undoPut_ok {put : Put} {undo : Delete} (done : tx.undoPut put = .ok undo) :
    undo.row = put.row ∧ undo.timestamp = .latest ∧
      undo.scopes = put.cells.map fun cell => .version cell.column cell.version := by
  rw [Descriptor.attach_ok done]
  exact ⟨rfl, rfl, rfl⟩

theorem undoDelete_ok {image : RowResult} {undo : Put}
    (done : tx.undoDelete image = .ok (some undo)) :
    undo.row = image.row ∧ undo.cells = image.cells := by
  rw [undoDelete] at done
  split at done
  · cases done
  · cases made : Descriptor.attach tx ({ row := image.row, cells := image.cells } : Put) with
    | error error =>
      rw [made] at done
      cases done
    | ok attached =>
      rw [made] at done
      cases done
      rw [Descriptor.attach_ok made]
      exact ⟨rfl, rfl⟩

theorem undoDelete_none {image : RowResult} (done : tx.undoDelete image = .ok none) :
    image.cells = [] := by
  rw [undoDelete] at done
  split at done
  · rename_i empty
    exact List.isEmpty_iff.1 empty
  · cases made : Descriptor.attach tx ({ row := image.row, cells := image.cells } : Put) <;>
      (rw [made] at done; cases done)

theorem find?_stamped (writePointer : Version) (cells : List Cell) (column : Column)
    (version : Version) :
    ((cells.map fun cell => { cell with version := writePointer }).find? fun cell =>
        cell.column = column ∧ cell.version = version).map (·.value) =
      if version = writePointer then
        (cells.find? fun cell => cell.column = column).map (·.value)
      else none := by
  induction cells with
  | nil => simp
  | cons cell rest ih =>
    by_cases same : version = writePointer
    · subst same
      simp only [if_true] at ih ⊢
      by_cases here : cell.column = column
      · simp [here]
      · simpa [List.find?_cons, here] using ih
    · have other : ¬writePointer = version := fun eq => same eq.symm
      simp [same, other]

theorem change_stampPut {put stamped : Put} (done : tx.stampPut put = .ok stamped) :
    (Mutation.put stamped).change = (Mutation.put put).changeAt tx.writePointer := by
  obtain ⟨row, cells⟩ := stampPut_ok done
  funext place
  have stampedCell : stamped.cellAt? place.column place.version =
      if place.version = tx.writePointer then put.valueFor? place.column else none := by
    rw [Put.cellAt?, Put.valueFor?, cells, ← List.map_reverse]
    exact find?_stamped tx.writePointer put.cells.reverse place.column place.version
  simp only [Mutation.change, Mutation.changeAt, row, stampedCell]
  by_cases here : place.row = put.row
  · by_cases now : place.version = tx.writePointer <;> simp [here, now]
  · simp [here]

theorem covers_stamped {delete stamped : Delete} (timestamp : stamped.timestamp = tx.writePointer)
    (scopes : stamped.scopes = delete.scopes.map stampScope) (column : Column)
    (version : Version) :
    stamped.covers column version =
      (decide (version ≤ tx.writePointer) && delete.names column) := by
  rw [Delete.covers, Delete.names, timestamp, scopes, List.isEmpty_map]
  by_cases below : version ≤ tx.writePointer
  · cases empty : delete.scopes.isEmpty with
    | true => simp [below]
    | false =>
      simp only [below, decide_true, Bool.true_and, Bool.false_or, Bool.false_eq_true, if_false,
        List.any_map]
      congr 1
      funext scope
      cases scope <;> rfl
  · cases empty : delete.scopes.isEmpty with
    | true => simp [below]
    | false =>
      simp only [below, decide_false, Bool.false_and, Bool.false_eq_true, if_false, List.any_map]
      rw [List.any_eq_false]
      intro scope _
      cases scope <;> simp [stampScope]

theorem change_stampDelete {delete stamped : Delete}
    (done : tx.stampDelete delete = .ok stamped) :
    (Mutation.delete stamped).change = (Mutation.delete delete).changeAt tx.writePointer := by
  obtain ⟨row, timestamp, scopes⟩ := stampDelete_ok done
  funext place
  simp only [Mutation.change, Mutation.changeAt, row,
    covers_stamped timestamp scopes place.column place.version, Bool.and_eq_true,
    decide_eq_true_eq]

end Transaction

end SnapshotTable
