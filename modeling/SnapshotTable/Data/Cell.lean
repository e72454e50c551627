import SnapshotTable.Data.Bytes
import SnapshotTable.Data.Version

/-!
Cells and the cells read from one row. A row result lists its cells by family, qualifier and
descending version, so the first cell of a column is its newest; cells with the same column and
version keep the order in which they were given.
-/

namespace SnapshotTable

set_option autoImplicit false

structure Column where
  family : Bytes
  qualifier : Bytes
deriving DecidableEq, Inhabited

namespace Column

instance : Ord Column := ⟨compareLex (compareOn family) (compareOn qualifier)⟩

instance : Std.TransOrd Column :=
  inferInstanceAs (Std.TransCmp (compareLex (compareOn family) (compareOn qualifier)))

instance : Std.LawfulEqOrd Column where
  eq_of_compare {a b} h := by
    have order : compareLex (compareOn family) (compareOn qualifier) a b = .eq := h
    rw [compareLex_eq_eq] at order
    have families : a.family = b.family := Std.LawfulEqOrd.eq_of_compare order.1
    have qualifiers : a.qualifier = b.qualifier := Std.LawfulEqOrd.eq_of_compare order.2
    cases a; cases b; simp_all

end Column

structure Cell where
  column : Column
  version : Version
  value : Bytes
deriving DecidableEq, Inhabited

namespace Cell

def order : Cell → Cell → Ordering :=
  compareLex (compareOn column) fun a b => compare b.version a.version

private theorem trans_newest : Std.TransCmp fun a b : Cell => compare b.version a.version :=
  inferInstanceAs (Std.TransCmp fun a b : Cell => compareOn version b a)

instance : Std.TransCmp order :=
  have := trans_newest
  inferInstanceAs
    (Std.TransCmp (compareLex (compareOn column) fun a b => compare b.version a.version))

/-- Puts a cell in front of the first cell that it does not follow. -/
def insertOrdered (cell : Cell) : List Cell → List Cell
  | [] => [cell]
  | head :: rest =>
    if (order cell head).isLE then cell :: head :: rest else head :: insertOrdered cell rest

def sort (cells : List Cell) : List Cell := cells.foldr insertOrdered []

theorem insertOrdered_perm (cell : Cell) (cells : List Cell) :
    (insertOrdered cell cells).Perm (cell :: cells) := by
  induction cells with
  | nil => exact .refl _
  | cons head rest ih =>
    rw [insertOrdered]
    split
    · exact .refl _
    · exact (ih.cons head).trans (List.Perm.swap ..)

theorem sort_perm (cells : List Cell) : (sort cells).Perm cells := by
  induction cells with
  | nil => exact .refl _
  | cons head rest ih => exact (insertOrdered_perm head _).trans (ih.cons head)

theorem pairwise_insertOrdered (cell : Cell) {cells : List Cell}
    (ordered : cells.Pairwise fun a b => (order a b).isLE) :
    (insertOrdered cell cells).Pairwise fun a b => (order a b).isLE := by
  induction cells with
  | nil => simp [insertOrdered]
  | cons head rest ih =>
    obtain ⟨below, tail⟩ := List.pairwise_cons.1 ordered
    rw [insertOrdered]
    split
    · rename_i first
      refine List.pairwise_cons.2 ⟨fun other mem => ?_, ordered⟩
      rcases List.mem_cons.1 mem with rfl | mem
      · exact first
      · exact Std.TransCmp.isLE_trans first (below other mem)
    · rename_i later
      refine List.pairwise_cons.2 ⟨fun other mem => ?_, ih tail⟩
      rcases List.mem_cons.1 ((insertOrdered_perm cell rest).mem_iff.1 mem) with rfl | mem
      · refine Std.OrientedCmp.isGE_iff_isLE.1 ?_
        cases h : order other head <;> simp_all
      · exact below other mem

theorem pairwise_sort (cells : List Cell) :
    (sort cells).Pairwise fun a b => (order a b).isLE := by
  induction cells with
  | nil => exact List.Pairwise.nil
  | cons head rest ih => exact pairwise_insertOrdered head ih

theorem sort_eq_self {cells : List Cell}
    (ordered : cells.Pairwise fun a b => (order a b).isLE) : sort cells = cells := by
  induction cells with
  | nil => rfl
  | cons head rest ih =>
    obtain ⟨below, tail⟩ := List.pairwise_cons.1 ordered
    have : sort (head :: rest) = insertOrdered head (sort rest) := rfl
    rw [this, ih tail]
    cases rest with
    | nil => rfl
    | cons second others => simp [insertOrdered, below second (List.mem_cons_self ..)]

theorem filter_insertOrdered {cell : Cell} {cells : List Cell} {keep : Cell → Bool}
    (tied : keep cell → ∀ other ∈ cells, keep other → (order cell other).isLE) :
    (insertOrdered cell cells).filter keep = (cell :: cells).filter keep := by
  induction cells with
  | nil => rfl
  | cons head rest ih =>
    have later := ih fun kept other mem => tied kept other (List.mem_cons_of_mem _ mem)
    rw [insertOrdered]
    split
    · rfl
    · rename_i follows
      rw [List.filter_cons, later]
      by_cases kept : keep cell
      · have skipped : ¬keep head := fun also => follows (tied kept head (List.mem_cons_self ..) also)
        simp [kept, skipped]
      · simp [kept, List.filter_cons]

theorem filter_sort {cells : List Cell} {keep : Cell → Bool}
    (tied : ∀ cell ∈ cells, keep cell → ∀ other ∈ cells, keep other → (order cell other).isLE) :
    (sort cells).filter keep = cells.filter keep := by
  induction cells with
  | nil => rfl
  | cons head rest ih =>
    have sorted := ih fun cell mem kept other listed =>
      tied cell (List.mem_cons_of_mem _ mem) kept other (List.mem_cons_of_mem _ listed)
    have first : keep head → ∀ other ∈ sort rest, keep other → (order head other).isLE :=
      fun kept other mem => tied head (List.mem_cons_self ..) kept other
        (List.mem_cons_of_mem _ ((sort_perm rest).mem_iff.1 mem))
    have inserted : sort (head :: rest) = insertOrdered head (sort rest) := rfl
    rw [inserted, filter_insertOrdered first, List.filter_cons, List.filter_cons, sorted]

end Cell

/-- The cells read from one row, in the order of `Cell.order`. -/
structure RowResult where
  row : Bytes
  cells : List Cell
  ordered : cells.Pairwise fun a b => (Cell.order a b).isLE
deriving DecidableEq

namespace RowResult

def ofCells (row : Bytes) (cells : List Cell) : RowResult :=
  ⟨row, Cell.sort cells, Cell.pairwise_sort cells⟩

def empty (row : Bytes) : RowResult := ⟨row, [], List.Pairwise.nil⟩

instance : Inhabited RowResult := ⟨empty []⟩

def size (result : RowResult) : Nat := result.cells.length

def isEmpty (result : RowResult) : Bool := result.cells.isEmpty

def newest? (result : RowResult) (column : Column) : Option Cell :=
  result.cells.find? (·.column == column)

def value? (result : RowResult) (column : Column) : Option Bytes :=
  (result.newest? column).map (·.value)

def versionsOf (result : RowResult) (column : Column) : List Cell :=
  result.cells.filter (·.column == column)

/-- Keeps the cells that pass a test; a part of an ordered list is ordered. -/
def filter (result : RowResult) (keep : Cell → Bool) : RowResult :=
  ⟨result.row, result.cells.filter keep, result.ordered.filter keep⟩

end RowResult

end SnapshotTable
