import SnapshotTable.Proofs.Agreement

/-!
The order of the cells of a row result. It lists the cells that it was given, each as often as it was
given, and of all listings only this one is in order and leaves cells of one column and version as they
were. The first cell of a column is therefore the first given one of the greatest version.
-/

namespace SnapshotTable

set_option autoImplicit false

/-- Columns are in the order of their families, and in a family in the order of their qualifiers. -/
def Column.Before (first second : Column) : Prop :=
  first.family < second.family ∨
    first.family = second.family ∧ first.qualifier < second.qualifier

theorem Column.compare_eq_lt_iff {first second : Column} :
    compare first second = .lt ↔ first.Before second := by
  have families : compareOn family first second = .lt ↔ first.family < second.family :=
    Bytes.compare_eq_lt_iff
  have same : compareOn family first second = .eq ↔ first.family = second.family :=
    Std.LawfulEqOrd.compare_eq_iff_eq
  have qualifiers : compareOn qualifier first second = .lt ↔ first.qualifier < second.qualifier :=
    Bytes.compare_eq_lt_iff
  change compareLex (compareOn family) (compareOn qualifier) first second = .lt ↔ _
  rw [compareLex, Ordering.then_eq_lt, families, same, qualifiers, Before]

namespace Cell

/-- The column of the first cell comes before that of the second one, or it is the same one and the
version of the first cell is no less. -/
def NotAfter (first second : Cell) : Prop :=
  first.column.Before second.column ∨
    first.column = second.column ∧ second.version ≤ first.version

def isAt (column : Column) (version : Version) (cell : Cell) : Bool :=
  cell.column == column && cell.version == version

/-- The cells in the order of a row result. Those of one column and version keep their order. -/
structure Arranges (cells listed : List Cell) : Prop where
  perm : listed.Perm cells
  ascending : listed.Pairwise NotAfter
  stable : ∀ column version,
    listed.filter (isAt column version) = cells.filter (isAt column version)

/-- The first cell that has the greatest version in its column. -/
def Foremost (column : Column) (cells : List Cell) (cell : Cell) : Prop :=
  ∃ before after, cells = before ++ cell :: after ∧ cell.column = column ∧
    (∀ other ∈ before, other.column = column → other.version < cell.version) ∧
    ∀ other ∈ after, other.column = column → other.version ≤ cell.version

variable {first second cell : Cell} {cells listed : List Cell} {column : Column}

theorem isLE_order_iff : (order first second).isLE ↔ NotAfter first second := by
  have columns : compareOn Cell.column first second = .eq ↔ first.column = second.column :=
    Std.LawfulEqOrd.compare_eq_iff_eq
  have versions : compare second.version first.version = .eq ↔ second.version = first.version :=
    Std.LawfulEqOrd.compare_eq_iff_eq
  have same : order first second = .eq ↔
      first.column = second.column ∧ second.version = first.version := by
    rw [order, compareLex_eq_eq, columns, versions]
  rw [Ordering.isLE_iff_eq_lt_or_eq_eq, order_eq_lt, same, Before, NotAfter,
    Column.compare_eq_lt_iff]
  constructor
  · rintro ((before | ⟨same, newer⟩) | ⟨same, equal⟩)
    · exact .inl before
    · exact .inr ⟨same, Version.le_of_lt newer⟩
    · exact .inr ⟨same, Version.le_iff.2 (by rw [equal])⟩
  · rintro (before | ⟨same, noNewer⟩)
    · exact .inl (.inl before)
    · by_cases equal : second.version = first.version
      · exact .inr ⟨same, equal⟩
      · exact .inl (.inr ⟨same, Version.lt_of_le_of_ne noNewer equal⟩)

theorem isAt_iff {version : Version} :
    isAt column version cell ↔ cell.column = column ∧ cell.version = version := by
  simp only [isAt, Bool.and_eq_true, beq_iff_eq]

theorem NotAfter.antisymm (before : NotAfter first second) (after : NotAfter second first) :
    first.column = second.column ∧ first.version = second.version := by
  have here : (order first second).isLE := isLE_order_iff.2 before
  have there : (order first second).isGE := Std.OrientedCmp.isGE_iff_isLE.2 (isLE_order_iff.2 after)
  have equal : order first second = .eq := by
    cases compared : order first second with
    | lt =>
      rw [compared] at there
      cases there
    | eq => rfl
    | gt =>
      rw [compared] at here
      cases here
  rw [order, compareLex_eq_eq] at equal
  exact ⟨Std.LawfulEqOrd.eq_of_compare equal.1, (Std.LawfulEqOrd.eq_of_compare equal.2).symm⟩

theorem arranges_sort (cells : List Cell) : Arranges cells (sort cells) where
  perm := sort_perm cells
  ascending := (pairwise_sort cells).imp isLE_order_iff.1
  stable := by
    intro column version
    refine filter_sort fun cell _ here other _ there => ?_
    obtain ⟨same, equal⟩ := isAt_iff.1 here
    obtain ⟨same', equal'⟩ := isAt_iff.1 there
    refine isLE_order_iff.2 (.inr ⟨same.trans same'.symm, ?_⟩)
    rw [equal, equal']
    exact Version.le_refl _

theorem mem_of_filter {left right : List Cell}
    (same : ∀ column version,
      left.filter (isAt column version) = right.filter (isAt column version))
    (mem : cell ∈ left) : cell ∈ right := by
  have kept : cell ∈ left.filter (isAt cell.column cell.version) :=
    List.mem_filter.2 ⟨mem, isAt_iff.2 ⟨rfl, rfl⟩⟩
  rw [same] at kept
  exact List.mem_of_mem_filter kept

theorem NotAfter.le (before : NotAfter first second) (same : first.column = second.column) :
    second.version ≤ first.version := by
  rcases before with less | ⟨_, le⟩
  · have compared := Column.compare_eq_lt_iff.2 less
    rw [same] at compared
    exact absurd compared (Std.OrientedCmp.not_lt_of_lt compared)
  · exact le

/-- Two listings in order are the same if they have the same cells of each column and version, in the
same order. -/
theorem eq_of_filter {left right : List Cell} (ascending : left.Pairwise NotAfter)
    (ascending' : right.Pairwise NotAfter)
    (same : ∀ column version,
      left.filter (isAt column version) = right.filter (isAt column version)) : left = right := by
  induction left generalizing right with
  | nil =>
    refine (List.eq_nil_iff_forall_not_mem.2 fun cell mem => ?_).symm
    exact List.not_mem_nil (mem_of_filter (fun column version => (same column version).symm) mem)
  | cons head rest ih =>
    cases right with
    | nil => cases mem_of_filter same List.mem_cons_self
    | cons head' rest' =>
      obtain ⟨below, tail⟩ := List.pairwise_cons.1 ascending
      obtain ⟨below', tail'⟩ := List.pairwise_cons.1 ascending'
      have equal : head = head' := by
        rcases List.mem_cons.1 (mem_of_filter same List.mem_cons_self) with equal | inside
        · exact equal
        rcases List.mem_cons.1 (mem_of_filter (fun column version => (same column version).symm)
          List.mem_cons_self) with equal | inside'
        · exact equal.symm
        -- each head lies behind the other one, so both are at one place and come first there
        have tied := (below head' inside').antisymm (below' head inside)
        have first := same head.column head.version
        rw [List.filter_cons_of_pos (isAt_iff.2 ⟨rfl, rfl⟩),
          List.filter_cons_of_pos (isAt_iff.2 ⟨tied.1.symm, tied.2.symm⟩)] at first
        exact (List.cons.inj first).1
      subst equal
      refine congrArg (head :: ·) (ih tail tail' fun column version => ?_)
      have whole := same column version
      rw [List.filter_cons, List.filter_cons] at whole
      split at whole
      · exact (List.cons.inj whole).2
      · exact whole

theorem sort_eq_iff : sort cells = listed ↔ Arranges cells listed := by
  constructor
  · rintro rfl
    exact arranges_sort cells
  · intro arranges
    have sorted := arranges_sort cells
    exact eq_of_filter sorted.ascending arranges.ascending fun column version =>
      (sorted.stable column version).trans (arranges.stable column version).symm

theorem foremost_iff : Foremost column cells cell ↔ cell.column = column ∧
    (∀ other ∈ cells, other.column = column → other.version ≤ cell.version) ∧
      cells.find? (isAt column cell.version) = some cell := by
  constructor
  · rintro ⟨before, after, split, named, less, noMore⟩
    refine ⟨named, fun other mem same => ?_, ?_⟩
    · rw [split] at mem
      rcases List.mem_append.1 mem with inside | inside
      · exact Version.le_of_lt (less other inside same)
      rcases List.mem_cons.1 inside with rfl | inside
      · exact Version.le_refl _
      · exact noMore other inside same
    · refine List.find?_eq_some_iff_append.2 ⟨isAt_iff.2 ⟨named, rfl⟩, before, after, split, ?_⟩
      intro other inside
      rw [Bool.not_eq_true', ← Bool.not_eq_true, isAt_iff]
      rintro ⟨same, equal⟩
      have below := less other inside same
      rw [equal, Version.lt_iff] at below
      exact Nat.lt_irrefl _ below
  · rintro ⟨named, greatest, first⟩
    obtain ⟨_, before, after, split, older⟩ := List.find?_eq_some_iff_append.1 first
    refine ⟨before, after, split, named, fun other inside same => ?_, fun other inside same => ?_⟩
    · have le := greatest other (split ▸ List.mem_append_left _ inside) same
      refine Version.lt_of_le_of_ne le fun equal => ?_
      have skipped := older other inside
      rw [isAt_iff.2 ⟨same, equal⟩] at skipped
      cases skipped
    · exact greatest other (split ▸ List.mem_append_right _ (List.mem_cons_of_mem _ inside)) same

theorem Foremost.mem (foremost : Foremost column cells cell) : cell ∈ cells :=
  List.mem_of_find?_eq_some (foremost_iff.1 foremost).2.2

theorem Foremost.unique {other : Cell} (foremost : Foremost column cells cell)
    (foremost' : Foremost column cells other) : cell = other := by
  obtain ⟨named, greatest, first⟩ := foremost_iff.1 foremost
  obtain ⟨named', greatest', first'⟩ := foremost_iff.1 foremost'
  have here := greatest' cell foremost.mem named
  have there := greatest other foremost'.mem named'
  have equal : cell.version = other.version :=
    Version.ext_toNat (Nat.le_antisymm (Version.le_iff.1 here) (Version.le_iff.1 there))
  rw [equal, first'] at first
  exact (Option.some.inj first).symm

section FirstListed

variable (arranges : Arranges cells listed)
  (found : listed.find? (·.column == column) = some cell)

include arranges found

theorem Arranges.le_of_find? {other : Cell} (mem : other ∈ cells) (same : other.column = column) :
    other.version ≤ cell.version := by
  obtain ⟨named, earlier, later, split, none⟩ := List.find?_eq_some_iff_append.1 found
  have inside := arranges.perm.mem_iff.2 mem
  have ascending := arranges.ascending
  rw [split] at inside ascending
  rcases List.mem_append.1 inside with inside | inside
  · have skipped := none other inside
    rw [same, beq_self_eq_true] at skipped
    cases skipped
  rcases List.mem_cons.1 inside with rfl | inside
  · exact Version.le_refl _
  · have follows := (List.pairwise_cons.1 (List.pairwise_append.1 ascending).2.1).1 other inside
    exact follows.le ((beq_iff_eq.1 named).trans same.symm)

theorem Arranges.find?_of_find? : cells.find? (isAt column cell.version) = some cell := by
  obtain ⟨named, earlier, later, split, none⟩ := List.find?_eq_some_iff_append.1 found
  have kept : isAt column cell.version cell := isAt_iff.2 ⟨beq_iff_eq.1 named, rfl⟩
  have skipped : earlier.filter (isAt column cell.version) = [] := by
    refine List.filter_eq_nil_iff.2 fun other inside kept => ?_
    have elsewhere := none other inside
    rw [(isAt_iff.1 kept).1, beq_self_eq_true] at elsewhere
    cases elsewhere
  rw [← List.head?_filter, ← arranges.stable, split, List.filter_append, skipped, List.nil_append,
    List.filter_cons_of_pos kept]
  rfl

theorem Arranges.foremost : Foremost column cells cell :=
  foremost_iff.2 ⟨beq_iff_eq.1 (List.find?_eq_some_iff_append.1 found).1,
    fun _ => arranges.le_of_find? found, arranges.find?_of_find? found⟩

end FirstListed

end Cell

namespace RowResult

variable {row : Bytes} {cells : List Cell} {column : Column}

theorem cells_eq_iff {listed : List Cell} :
    (ofCells row cells).cells = listed ↔ Cell.Arranges cells listed := Cell.sort_eq_iff

theorem newest?_eq_none_iff :
    (ofCells row cells).newest? column = none ↔ ∀ cell ∈ cells, cell.column ≠ column := by
  have perm := (Cell.arranges_sort cells).perm
  have all : (ofCells row cells).newest? column = none ↔
      ∀ cell ∈ Cell.sort cells, ¬(cell.column == column) := List.find?_eq_none
  rw [all]
  refine forall_congr' fun cell => ?_
  rw [perm.mem_iff, beq_iff_eq]

theorem newest?_eq_some_iff {cell : Cell} :
    (ofCells row cells).newest? column = some cell ↔ Cell.Foremost column cells cell := by
  have arranges := Cell.arranges_sort cells
  constructor
  · exact arranges.foremost
  · intro foremost
    cases found : (ofCells row cells).newest? column with
    | none =>
      have named := (Cell.foremost_iff.1 foremost).1
      exact absurd named (newest?_eq_none_iff.1 found cell foremost.mem)
    | some other => rw [foremost.unique (arranges.foremost found)]

theorem versionsOf_perm :
    ((ofCells row cells).versionsOf column).Perm (cells.filter (·.column == column)) :=
  (Cell.arranges_sort cells).perm.filter _

theorem pairwise_versionsOf : ((ofCells row cells).versionsOf column).Pairwise
    fun first second => second.version ≤ first.version := by
  refine List.pairwise_filter.2 ((Cell.arranges_sort cells).ascending.imp fun before here there => ?_)
  exact before.le ((beq_iff_eq.1 here).trans (beq_iff_eq.1 there).symm)

/-- A row result lists the given cells in the one way that is in order and leaves ties as they are. Of
each column it has the first given cell of the greatest version, and all versions from the greatest to
the least. -/
theorem row_results_keep_and_order_cells (row : Bytes) (cells : List Cell) :
    let result := ofCells row cells
    result.row = row ∧ (∀ listed, result.cells = listed ↔ Cell.Arranges cells listed) ∧
      ∀ column,
        (∀ cell, result.newest? column = some cell ↔ Cell.Foremost column cells cell) ∧
        (result.newest? column = none ↔ ∀ cell ∈ cells, cell.column ≠ column) ∧
        (∀ value, result.value? column = some value ↔
          ∃ cell, Cell.Foremost column cells cell ∧ cell.value = value) ∧
        (result.value? column = none ↔ ∀ cell ∈ cells, cell.column ≠ column) ∧
        (result.versionsOf column).Perm (cells.filter (·.column == column)) ∧
        (result.versionsOf column).Pairwise fun first second => second.version ≤ first.version := by
  refine ⟨rfl, fun listed => cells_eq_iff, fun column => ⟨fun cell => newest?_eq_some_iff,
    newest?_eq_none_iff, fun value => ?_, ?_, versionsOf_perm, pairwise_versionsOf⟩⟩
  · rw [value?, Option.map_eq_some_iff]
    simp only [newest?_eq_some_iff]
  · rw [value?, Option.map_eq_none_iff, newest?_eq_none_iff]

end RowResult

end SnapshotTable
