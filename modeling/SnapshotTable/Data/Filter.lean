import SnapshotTable.Data.Cell

/-!
What a read returns of a row: some columns, some versions, and so many of them.
-/

namespace SnapshotTable

set_option autoImplicit false

inductive Selector where
  | family (named : Bytes)
  | column (named : Column)
deriving DecidableEq

namespace Selector

def matchesColumn (selector : Selector) (column : Column) : Bool :=
  match selector with
  | .family named => named == column.family
  | .column named => named == column

end Selector

/-- Which cells of a row a read returns: at most `maxVersions` of each admitted column, the newest
of those whose version is admitted. -/
structure Filter where
  selectors : List Selector := []
  ceiling : Option Version := none
  excluded : VersionSet := .empty
  maxVersions : Nat := 1
deriving DecidableEq

namespace Filter

instance : Inhabited Filter := ⟨{}⟩

/-- A filter without selectors admits every column. -/
def admitsColumn (filter : Filter) (column : Column) : Bool :=
  filter.selectors.isEmpty || filter.selectors.any (·.matchesColumn column)

def admitsVersion (filter : Filter) (version : Version) : Bool :=
  filter.ceiling.all (fun ceiling => decide (version ≤ ceiling)) &&
    !filter.excluded.contains version

end Filter

end SnapshotTable
