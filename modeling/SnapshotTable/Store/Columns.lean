import SnapshotTable.Data.Request

/-!
The columns of one row. Columns stand in their order, and a column's versions with the newest first.
`cell?` views them as a flat map from column and version to value.
-/

namespace SnapshotTable

set_option autoImplicit false

abbrev Versions := SortedMap Version Bytes Version.newestFirst

abbrev Columns := SortedMap Column Versions compare

namespace Columns

def cell? (columns : Columns) (column : Column) (version : Version) : Option Bytes := do
  let versions ← columns.find? column
  versions.find? version

def cells (columns : Columns) (admits : Column → Bool)
    (choose : List (Version × Bytes) → List (Version × Bytes)) : List Cell :=
  columns.entries.flatMap fun (column, versions) =>
    if admits column then
      (choose versions.entries).map fun (version, value) => ⟨column, version, value⟩
    else []

def read (columns : Columns) (filter : Filter) : List Cell :=
  columns.cells filter.admitsColumn fun versions =>
    (versions.filter fun entry => filter.admitsVersion entry.1).take filter.maxVersions

def all (columns : Columns) : List Cell := columns.cells (fun _ => true) id

def newest? (columns : Columns) (column : Column) : Option Bytes := do
  let versions ← columns.find? column
  versions.values.head?

def insert (columns : Columns) (column : Column) (version : Version) (value : Bytes) : Columns :=
  columns.alter column fun versions =>
    some ((versions.getD .empty).insert version value)

def remove (columns : Columns) (delete : Delete) : Columns :=
  columns.filterMap fun column versions =>
    let kept := versions.filter fun version _ => !delete.covers column version
    if kept.isEmpty then none else some kept

theorem cell?_insert (columns : Columns) (column other : Column) (version otherVersion : Version)
    (value : Bytes) :
    (columns.insert column version value).cell? other otherVersion =
      if other = column ∧ otherVersion = version then some value
      else columns.cell? other otherVersion := by
  simp only [cell?, insert, SortedMap.find?_alter_eq]
  by_cases same : other = column
  · subst same
    cases found : columns.find? other <;>
      simp [SortedMap.find?_insert_eq]
  · simp [same]

theorem cell?_remove (columns : Columns) (delete : Delete) (column : Column) (version : Version) :
    (columns.remove delete).cell? column version =
      if delete.covers column version then none else columns.cell? column version := by
  simp only [cell?, remove, SortedMap.find?_filterMap]
  cases columns.find? column with
  | none => simp
  | some versions =>
    have kept := SortedMap.find?_filter versions (fun version _ => !delete.covers column version)
      version
    simp only [bind, Option.bind_some]
    split
    · rename_i isEmpty
      rw [SortedMap.find?_of_isEmpty isEmpty] at kept
      cases found : versions.find? version <;> simp_all [Option.filter]
    · rw [Option.bind_some, kept]
      cases versions.find? version <;> by_cases covered : delete.covers column version <;>
        simp [Option.filter, covered]

end Columns

end SnapshotTable
