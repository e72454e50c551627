import SnapshotTable.Data.Filter
import SnapshotTable.Store.Error

/-!
Requests to a cell store. A read filters what it returns; a write adds cells to a row or removes
cells from it. Every request carries attributes, which a store passes by unread.
-/

namespace SnapshotTable

set_option autoImplicit false

abbrev Attributes := SortedMap String Bytes compare

inductive Durability where
  | useDefault
  | skipLog
  | asyncLog
  | syncLog
  | fsyncLog
deriving DecidableEq, Inhabited

structure Get where
  row : Bytes
  filter : Filter := {}
  attributes : Attributes := .empty
deriving DecidableEq

/-- A read of the rows from `start` on that lie before `stop`. -/
structure Scan where
  start : Bytes := []
  stop : Option Bytes := none
  filter : Filter := {}
  attributes : Attributes := .empty
deriving DecidableEq

namespace Scan

def containsRow (scan : Scan) (row : Bytes) : Bool :=
  (compare scan.start row).isLE && scan.stop.all fun stop => compare row stop == .lt

end Scan

/-- A write of cells to one row. The timestamp is the version of cells that were given none. -/
structure Put where
  row : Bytes
  timestamp : Version := .latest
  cells : List Cell := []
  attributes : Attributes := .empty
  durability : Durability := .useDefault
deriving DecidableEq

namespace Put

def isEmpty (put : Put) : Bool := put.cells.isEmpty

def add (put : Put) (column : Column) (value : Bytes) : Put :=
  { put with cells := put.cells ++ [⟨column, put.timestamp, value⟩] }

end Put

inductive Scope where
  | family (named : Bytes)
  | column (named : Column)
  | version (named : Column) (exact : Version)
deriving DecidableEq

/-- A removal of cells from one row; without scopes it concerns every column. -/
structure Delete where
  row : Bytes
  timestamp : Version := .latest
  scopes : List Scope := []
  attributes : Attributes := .empty
  durability : Durability := .useDefault
deriving DecidableEq

namespace Delete

/-- A version scope names one cell; all other removal stops at the timestamp. -/
def covers (delete : Delete) (column : Column) (version : Version) : Bool :=
  let below := decide (version ≤ delete.timestamp)
  if delete.scopes.isEmpty then below
  else delete.scopes.any fun
    | .family named => below && named == column.family
    | .column named => below && named == column
    | .version named exact => named == column && exact == version

end Delete

structure Append where
  row : Bytes
  columns : List (Column × Bytes) := []
  attributes : Attributes := .empty
  durability : Durability := .useDefault
deriving DecidableEq

structure Increment where
  row : Bytes
  columns : List (Column × Int64) := []
  attributes : Attributes := .empty
  durability : Durability := .useDefault
deriving DecidableEq

inductive Mutation where
  | put (write : Put)
  | delete (removal : Delete)
deriving DecidableEq

namespace Mutation

def row : Mutation → Bytes
  | .put write => write.row
  | .delete removal => removal.row

end Mutation

structure RowMutations where
  row : Bytes
  mutations : List Mutation
  sameRow : ∀ mutation ∈ mutations, mutation.row = row
deriving DecidableEq

namespace RowMutations

def empty (row : Bytes) : RowMutations := ⟨row, [], by simp⟩

def add (target : RowMutations) (mutation : Mutation) : Except StoreError RowMutations :=
  if same : mutation.row = target.row then
    .ok ⟨target.row, target.mutations ++ [mutation], by
      intro other mem
      rcases List.mem_append.1 mem with mem | mem
      · exact target.sameRow other mem
      · rw [List.mem_singleton.1 mem, same]⟩
  else .error .mutationOfOtherRow

end RowMutations

class Attributed (ρ : Type) where
  attributes : ρ → Attributes
  withAttributes : ρ → Attributes → ρ

namespace Attributed

instance : Attributed Get := ⟨Get.attributes, fun get all => { get with attributes := all }⟩
instance : Attributed Scan := ⟨Scan.attributes, fun scan all => { scan with attributes := all }⟩
instance : Attributed Put := ⟨Put.attributes, fun put all => { put with attributes := all }⟩
instance : Attributed Delete :=
  ⟨Delete.attributes, fun delete all => { delete with attributes := all }⟩
instance : Attributed Append :=
  ⟨Append.attributes, fun append all => { append with attributes := all }⟩
instance : Attributed Increment :=
  ⟨Increment.attributes, fun increment all => { increment with attributes := all }⟩

variable {ρ : Type} [Attributed ρ]

def attribute? (request : ρ) (key : String) : Option Bytes := (attributes request).find? key

def setAttribute (request : ρ) (key : String) (value : Bytes) : ρ :=
  withAttributes request ((attributes request).insert key value)

end Attributed

end SnapshotTable
