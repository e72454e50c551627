import Mathlib.Tactic.ByContra
import SnapshotTable.Proofs.Reads
import SnapshotTable.Proofs.Stamp

/-!
The newest values of a store, as a map without versions. Writes at a pointer that no cell is above
change the newest values just as they change the map, and a read that leaves no cell of a column out
by its version returns the newest value.
-/

namespace SnapshotTable

set_option autoImplicit false

/-- Rows of columns that have one value or none. -/
abbrev KeyValue := Bytes → Column → Option Bytes

namespace KeyValue

/-- A put gives columns of its row a value, and a delete takes it from them. -/
def apply (map : KeyValue) : Mutation → Bytes → Column → Option Bytes
  | .put write, row, column =>
    if row = write.row then (write.valueFor? column).or (map row column) else map row column
  | .delete removal, row, column =>
    if row = removal.row ∧ removal.names column then none else map row column

def applyAll (map : KeyValue) (writes : List Mutation) : KeyValue := writes.foldl apply map

end KeyValue

namespace Contents

/-- The value of a column at its newest version, `none` standing for a column without cells. -/
def Newest (contents : Contents) (row : Bytes) (column : Column) : Option Bytes → Prop
  | none => ∀ version, contents ⟨row, column, version⟩ = none
  | some value => ∃ version, contents ⟨row, column, version⟩ = some value ∧
      ∀ newer, version < newer → contents ⟨row, column, newer⟩ = none

def UpTo (contents : Contents) (pointer : Version) : Prop :=
  ∀ place value, contents place = some value → place.version ≤ pointer

def Below (contents : Contents) (pointer : Version) : Prop :=
  ∀ place value, contents place = some value → place.version < pointer

variable {contents other : Contents} {row : Bytes} {column : Column} {value? : Option Bytes}

theorem Below.upTo {pointer : Version} (below : contents.Below pointer) : contents.UpTo pointer :=
  fun place value found => Version.le_of_lt (below place value found)

theorem Newest.congr (newest : contents.Newest row column value?)
    (same : ∀ version, other ⟨row, column, version⟩ = contents ⟨row, column, version⟩) :
    other.Newest row column value? := by
  cases value? with
  | none =>
    intro version
    rw [same]
    exact newest version
  | some value =>
    obtain ⟨version, here, above⟩ := newest
    refine ⟨version, (same version).trans here, fun newer lt => ?_⟩
    rw [same]
    exact above newer lt

theorem UpTo.eq_none {pointer : Version} (upTo : contents.UpTo pointer) {place : Place}
    (above : ¬place.version ≤ pointer) : contents place = none := by
  cases found : contents place with
  | none => rfl
  | some value => exact absurd (upTo place value found) above

theorem UpTo.apply {pointer : Version} (upTo : contents.UpTo pointer) (write : Mutation) :
    (contents.apply (write.changeAt pointer)).UpTo pointer := by
  intro place value found
  by_contra above
  have untouched : write.changeAt pointer place = none := by
    have other : place.version ≠ pointer := by
      rintro rfl
      exact above (Version.le_refl _)
    cases write <;> simp [Mutation.changeAt, other, above]
  rw [Contents.apply, untouched, Option.getD_none, upTo.eq_none above] at found
  cases found

/-- A write at the pointer changes the newest values as it changes a map. -/
theorem Newest.apply {pointer : Version} {map : KeyValue} (upTo : contents.UpTo pointer)
    (newest : contents.Newest row column (map row column)) (write : Mutation) :
    (contents.apply (write.changeAt pointer)).Newest row column (map.apply write row column) := by
  cases write with
  | put write =>
    by_cases here : row = write.row ∧ write.valueFor? column ≠ none
    · obtain ⟨rfl, given⟩ := here
      obtain ⟨value, written⟩ := Option.ne_none_iff_exists'.1 given
      simp only [KeyValue.apply, if_true, written, Option.some_or]
      refine ⟨pointer, by simp [Contents.apply, Mutation.changeAt, written], fun newer above => ?_⟩
      have notBelow : ¬newer ≤ pointer := by
        rw [Version.lt_iff] at above
        rw [Version.le_iff]
        omega
      have away : newer ≠ pointer := by
        rintro rfl
        exact notBelow (Version.le_refl _)
      simpa [Contents.apply, Mutation.changeAt, away] using upTo.eq_none notBelow
    · have kept : map.apply (.put write) row column = map row column := by
        by_cases same : row = write.row
        · have absent : write.valueFor? column = none := by simpa [same] using here
          simp [KeyValue.apply, absent]
        · simp [KeyValue.apply, same]
      rw [kept]
      apply newest.congr
      intro version
      by_cases same : row = write.row
      · have absent : write.valueFor? column = none := by simpa [same] using here
        simp [Contents.apply, Mutation.changeAt, absent]
      · simp [Contents.apply, Mutation.changeAt, same]
  | delete removal =>
    by_cases here : row = removal.row ∧ removal.names column
    · rw [KeyValue.apply, if_pos here]
      intro version
      by_cases below : version ≤ pointer
      · simp [Contents.apply, Mutation.changeAt, here, below]
      · simpa [Contents.apply, Mutation.changeAt, below] using upTo.eq_none below
    · rw [KeyValue.apply, if_neg here]
      apply newest.congr
      intro version
      have untouched : ¬(row = removal.row ∧ version ≤ pointer ∧ removal.names column) :=
        fun all => here ⟨all.1, all.2.2⟩
      simp [Contents.apply, Mutation.changeAt, untouched]

theorem Newest.applyAll {pointer : Version} {map : KeyValue} (upTo : contents.UpTo pointer)
    (newest : ∀ row column, contents.Newest row column (map row column)) (writes : List Mutation) :
    (contents.applyAll (writes.map (·.changeAt pointer))).UpTo pointer ∧ ∀ row column,
      (contents.applyAll (writes.map (·.changeAt pointer))).Newest row column
        (map.applyAll writes row column) := by
  induction writes generalizing contents map with
  | nil => exact ⟨upTo, newest⟩
  | cons write rest ih =>
    exact ih (upTo.apply write) fun row column => (newest row column).apply upTo write

theorem Newest.of_subset (newest : contents.Newest row column value?)
    (subset : ∀ place value, other place = some value → contents place = some value)
    (kept : ∀ place value, contents place = some value →
      (∀ newer, place.version < newer → contents { place with version := newer } = none) →
        other place = some value) : other.Newest row column value? := by
  have nothing : ∀ place, contents place = none → other place = none := by
    intro place absent
    cases found : other place with
    | none => rfl
    | some value =>
      rw [subset place value found] at absent
      cases absent
  cases value? with
  | none => exact fun version => nothing _ (newest version)
  | some value =>
    obtain ⟨version, here, above⟩ := newest
    exact ⟨version, kept _ value here above, fun newer lt => nothing _ (above newer lt)⟩

end Contents

namespace RowResult

theorem version_le_of_newest? {result : RowResult} {column : Column} {first cell : Cell}
    (found : result.newest? column = some first) (mem : cell ∈ result.cells)
    (same : cell.column = column) : cell.version ≤ first.version := by
  obtain ⟨here, before, after, split, skipped⟩ := List.find?_eq_some_iff_append.1 found
  have order := result.ordered
  rw [split] at mem order
  rcases List.mem_append.1 mem with mem | mem
  · have passed := skipped cell mem
    simp [same] at passed
  · rcases List.mem_cons.1 mem with rfl | mem
    · exact Version.le_refl _
    · have follows := (List.pairwise_cons.1 (List.pairwise_append.1 order).2.1).1 cell mem
      have columns : first.column = cell.column := (beq_iff_eq.1 here).trans same.symm
      have versions : (compare cell.version first.version).isLE := by
        simpa [Cell.order, compareLex, compareOn, columns, Std.ReflCmp.compare_self] using follows
      have values : (compare cell.version.value first.version.value).isLE := versions
      change cell.version.value ≤ first.version.value
      exact Std.isLE_compare.1 values

end RowResult

namespace MemoryStore

variable {store : MemoryStore} {row : Bytes} {column : Column}

def VersionsBelow (store : MemoryStore) (pointer : Version) : Prop :=
  ∀ held ∈ store.columns, ∀ version ∈ held.2.2.keys, version < pointer

instance (store : MemoryStore) (pointer : Version) : Decidable (store.VersionsBelow pointer) :=
  inferInstanceAs (Decidable (∀ held ∈ store.columns, ∀ version ∈ held.2.2.keys, version < pointer))

theorem VersionsBelow.contents_below {pointer : Version} (below : store.VersionsBelow pointer) :
    store.contents.Below pointer := by
  intro place value found
  obtain ⟨versions, held, stored⟩ := mem_columns_of_contents found
  have listed := (SortedMap.mem_entries_iff ..).2 stored
  exact below _ held _ (List.mem_map.2 ⟨_, listed, rfl⟩)

theorem value?_get {request : Get} {value? : Option Bytes}
    (newest : store.contents.Newest request.row column value?)
    (admitted : request.filter.admitsColumn column)
    (seen : ∀ version, store.contents ⟨request.row, column, version⟩ ≠ none →
      request.filter.admitsVersion version)
    (room : 0 < request.filter.maxVersions) : (store.get request).value? column = value? := by
  have stored : ∀ cell, (store.get request).newest? column = some cell →
      store.contents ⟨request.row, column, cell.version⟩ = some cell.value := by
    intro cell found
    have same : cell.column = column := by simpa using List.find?_some found
    rw [← same]
    exact (contents_of_mem_get (List.mem_of_find?_eq_some found)).1
  rw [RowResult.value?]
  cases value? with
  | none =>
    cases found : (store.get request).newest? column with
    | none => rfl
    | some cell =>
      have here := stored cell found
      rw [newest cell.version] at here
      cases here
  | some value =>
    obtain ⟨version, here, above⟩ := newest
    have few : store.contents.FewAbove request.filter.admitsVersion
        ⟨request.row, column, version⟩ request.filter.maxVersions :=
      Contents.fewAbove_newest _ above room
    have read := mem_get_of_contents here admitted (seen version (by simp [here])) few
    cases found : (store.get request).newest? column with
    | none =>
      have skipped := List.find?_eq_none.1 found _ read
      simp at skipped
    | some first =>
      have first' := stored first found
      have le := Version.le_iff.1 (RowResult.version_le_of_newest? found read rfl)
      have same : first.version = version := by
        by_contra other
        have lt : version < first.version := by
          have : version.toNat ≠ first.version.toNat := fun eq => other (Version.ext_toNat eq.symm)
          rw [Version.lt_iff]
          exact Nat.lt_of_le_of_ne le this
        rw [above first.version lt] at first'
        cases first'
      rw [same, here] at first'
      exact first'.symm

theorem newest_newest? (store : MemoryStore) (row : Bytes) (column : Column) :
    store.contents.Newest row column (store.newest? row column) := by
  cases rowHere : store.rows.find? row with
  | none => simp [newest?, rowHere, Contents.Newest, contents, cell?]
  | some columns =>
    cases columnHere : columns.find? column with
    | none =>
      simp [newest?, Columns.newest?, rowHere, columnHere, Contents.Newest, contents, cell?,
        Columns.cell?]
    | some versions =>
      have view := contents_of_find? rowHere columnHere
      have same : store.newest? row column = versions.values.head? := by
        simp [newest?, Columns.newest?, rowHere, columnHere]
      rw [same, SortedMap.values]
      cases entries : versions.entries with
      | nil =>
        intro version
        rw [view, SortedMap.find?_of_isEmpty (by simp [SortedMap.isEmpty, entries])]
      | cons first rest =>
        have stored : versions.find? first.1 = some first.2 :=
          (SortedMap.mem_entries_iff ..).1 (entries ▸ List.mem_cons_self ..)
        refine ⟨first.1, (view first.1).trans stored, fun newer above => ?_⟩
        rw [view]
        cases found : versions.find? newer with
        | none => rfl
        | some value =>
          have mem : (newer, value) ∈ first :: rest :=
            entries ▸ (SortedMap.mem_entries_iff ..).2 found
          have order := versions.ascending
          rw [entries] at order
          rw [Version.lt_iff] at above
          rcases List.mem_cons.1 mem with same | mem
          · rw [← same] at above
            exact absurd above (Nat.lt_irrefl _)
          · have below : newer < first.1 :=
              Version.newestFirst_eq_lt.1 ((List.pairwise_cons.1 order).1 _ mem)
            rw [Version.lt_iff] at below
            omega

/-- What a read without a filter shows of a column. -/
def shown (store : MemoryStore) (row : Bytes) (column : Column) : Option Bytes :=
  (store.get { row := row }).value? column

theorem shown_of_newest {value? : Option Bytes}
    (newest : store.contents.Newest row column value?) : store.shown row column = value? :=
  value?_get newest rfl (fun _ _ => rfl) Nat.zero_lt_one

theorem shown_eq_newest? (store : MemoryStore) (row : Bytes) (column : Column) :
    store.shown row column = store.newest? row column :=
  shown_of_newest (store.newest_newest? row column)

theorem newest_shown (store : MemoryStore) (row : Bytes) (column : Column) :
    store.contents.Newest row column (store.shown row column) := by
  rw [shown_eq_newest?]
  exact store.newest_newest? row column

end MemoryStore

end SnapshotTable
