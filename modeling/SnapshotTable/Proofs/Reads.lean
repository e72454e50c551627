import SnapshotTable.Proofs.Contents

/-!
What a read of a row returns, in the flat view. It returns only cells that are stored and admitted,
and of those it leaves one out only if its column holds too many newer ones.
-/

namespace SnapshotTable

set_option autoImplicit false

namespace Version

theorem compare_eq_lt {a b : Version} : compare a b = .lt ↔ a < b := by
  change compare a.value b.value = .lt ↔ a.value < b.value
  exact Std.compare_eq_lt

theorem newestFirst_eq_lt {a b : Version} : newestFirst a b = .lt ↔ b < a := compare_eq_lt

theorem previous_le (version : Version) : version.previous ≤ version := by
  rw [previous]
  split
  · rename_i same
    simp [le_iff, same]
  · rename_i positive
    rw [le_iff, toNat, toNat, UInt64.toNat_sub_of_le]
    · omega
    · rw [UInt64.le_iff_toNat_le]
      have : version.value.toNat ≠ 0 := fun zero =>
        positive (ext_toNat (by simpa [toNat, Version.zero] using zero))
      simp
      omega

theorem toNat_sub_one {version : Version} (positive : 0 < version.toNat) :
    (⟨version.value - 1⟩ : Version).toNat = version.toNat - 1 := by
  rw [toNat, UInt64.toNat_sub_of_le]
  · rfl
  · rw [UInt64.le_iff_toNat_le]
    exact positive

theorem le_sub_one_of_lt {version pointer : Version} (below : version < pointer) :
    version ≤ ⟨pointer.value - 1⟩ := by
  rw [lt_iff] at below
  rw [le_iff, toNat, toNat, UInt64.toNat_sub_of_le]
  · simp only [toNat] at below
    simp
    omega
  · rw [UInt64.le_iff_toNat_le]
    simp only [toNat] at below
    simp
    omega

theorem le_previous_of_lt {version pointer : Version} (below : version < pointer) :
    version ≤ pointer.previous := by
  rw [previous]
  split
  · rename_i same
    rw [lt_iff] at below
    simp [same, toNat, Version.zero] at below
  · exact le_sub_one_of_lt below

theorem ne_of_le_previous {below version pointer : Version} (above : below < version)
    (le : version ≤ pointer.previous) : version ≠ pointer := by
  rintro rfl
  rw [lt_iff] at above
  have positive : version ≠ zero := fun same => by simp [same, toNat, zero] at above
  rw [previous, if_neg positive, le_iff, toNat, toNat, UInt64.toNat_sub_of_le] at le
  · simp only [toNat] at above
    simp at le
    omega
  · rw [UInt64.le_iff_toNat_le]
    simp only [toNat] at above
    simp
    omega

theorem lt_of_le_of_ne {version pointer : Version} (le : version ≤ pointer)
    (ne : version ≠ pointer) : version < pointer := by
  rw [le_iff] at le
  rw [lt_iff]
  have : version.toNat ≠ pointer.toNat := fun same => ne (ext_toNat same)
  omega

theorem le_of_lt {version pointer : Version} (below : version < pointer) : version ≤ pointer :=
  le_iff.2 (Nat.le_of_lt (lt_iff.1 below))

theorem le_previous_iff {version pointer : Version} (positive : zero < pointer) :
    version ≤ pointer.previous ↔ version < pointer := by
  refine ⟨fun le => ?_, le_previous_of_lt⟩
  have whole : version ≤ pointer :=
    le_iff.2 (Nat.le_trans (le_iff.1 le) (le_iff.1 pointer.previous_le))
  exact lt_of_le_of_ne whole fun same => ne_of_le_previous (same ▸ positive) le same

end Version

theorem mem_take_of_few {α : Type} {r : α → α → Prop} {elements : List α} {element : α}
    {bound : Nat} (sorted : elements.Pairwise r) (mem : element ∈ elements)
    (few : ∀ before : List α, before.Pairwise r →
      (∀ other ∈ before, other ∈ elements ∧ r other element) → before.length < bound) :
    element ∈ elements.take bound := by
  obtain ⟨before, after, rfl⟩ := List.append_of_mem mem
  obtain ⟨sortedBefore, _, across⟩ := List.pairwise_append.1 sorted
  have short : before.length < bound := few before sortedBefore fun other member =>
    ⟨List.mem_append_left _ member, across other member element (List.mem_cons_self ..)⟩
  obtain ⟨room, enough⟩ : ∃ room, bound - before.length = room + 1 :=
    ⟨bound - before.length - 1, by omega⟩
  rw [List.take_append, enough, List.take_succ_cons]
  exact List.mem_append_right _ (List.mem_cons_self ..)

namespace Columns

theorem mem_cells {columns : Columns} {admits : Column → Bool}
    {choose : List (Version × Bytes) → List (Version × Bytes)} {cell : Cell} :
    cell ∈ columns.cells admits choose ↔ admits cell.column ∧ ∃ versions,
      columns.find? cell.column = some versions ∧
        (cell.version, cell.value) ∈ choose versions.entries := by
  simp only [cells, List.mem_flatMap, Prod.exists, SortedMap.mem_entries_iff]
  constructor
  · rintro ⟨column, versions, found, mem⟩
    by_cases admitted : admits column
    · rw [if_pos admitted, List.mem_map] at mem
      obtain ⟨entry, member, rfl⟩ := mem
      exact ⟨admitted, versions, found, member⟩
    · rw [if_neg admitted] at mem
      cases mem
  · rintro ⟨admitted, versions, found, member⟩
    refine ⟨cell.column, versions, found, ?_⟩
    rw [if_pos admitted, List.mem_map]
    exact ⟨_, member, rfl⟩

end Columns

/-- Fewer than `bound` admitted versions stand above a place in its column. -/
def Contents.FewAbove (contents : Contents) (admits : Version → Bool) (place : Place)
    (bound : Nat) : Prop :=
  ∀ above : List Version, above.Nodup →
    (∀ version ∈ above, place.version < version ∧ admits version ∧
      (contents { place with version := version }).isSome) → above.length < bound

theorem Contents.fewAbove_newest {contents : Contents} (admits : Version → Bool) {place : Place}
    {bound : Nat} (newest : ∀ newer, place.version < newer →
      contents { place with version := newer } = none) (room : 0 < bound) :
    contents.FewAbove admits place bound := by
  intro above _ inside
  cases above with
  | nil => exact room
  | cons first rest =>
    obtain ⟨newer, _, present⟩ := inside first (List.mem_cons_self ..)
    rw [newest first newer] at present
    cases present

namespace MemoryStore

variable {store : MemoryStore}

theorem get_eq (request : Get) (store : MemoryStore) : CellStore.get request store =
    (if store.closed then .error .closed else .ok (store.get request), store) := by
  change store.perform (.get request) = _
  by_cases closed : store.closed <;> simp [perform, performOpen, closed]

theorem row_get (store : MemoryStore) (request : Get) : (store.get request).row = request.row := by
  rw [get]
  split <;> rfl

theorem mem_get_iff {request : Get} {cell : Cell} :
    cell ∈ (store.get request).cells ↔ ∃ columns versions,
      store.rows.find? request.row = some columns ∧
        request.filter.admitsColumn cell.column ∧
          columns.find? cell.column = some versions ∧
            (cell.version, cell.value) ∈
              (versions.entries.filter fun entry => request.filter.admitsVersion entry.1).take
                request.filter.maxVersions := by
  rw [get]
  cases found : store.rows.find? request.row with
  | none => simp [RowResult.empty]
  | some columns =>
    change cell ∈ Cell.sort (columns.read request.filter) ↔ _
    rw [(Cell.sort_perm _).mem_iff, Columns.read, Columns.mem_cells]
    constructor
    · rintro ⟨admitted, versions, rest⟩
      exact ⟨columns, versions, rfl, admitted, rest⟩
    · rintro ⟨_, versions, same, admitted, rest⟩
      cases same
      exact ⟨admitted, versions, rest⟩

theorem contents_of_find? {row : Bytes} {column : Column} {columns : Columns}
    {versions : Versions} (rowHere : store.rows.find? row = some columns)
    (columnHere : columns.find? column = some versions) (version : Version) :
    store.contents ⟨row, column, version⟩ = versions.find? version := by
  simp [contents, cell?, Columns.cell?, rowHere, columnHere]

theorem find?_of_contents {place : Place} {value : Bytes}
    (found : store.contents place = some value) : ∃ columns versions,
      store.rows.find? place.row = some columns ∧ columns.find? place.column = some versions ∧
        versions.find? place.version = some value := by
  rw [contents, cell?] at found
  obtain ⟨columns, row, found⟩ := Option.bind_eq_some_iff.1 found
  obtain ⟨versions, column, found⟩ := Option.bind_eq_some_iff.1 found
  exact ⟨columns, versions, row, column, found⟩

def columns (store : MemoryStore) : List (Bytes × Column × Versions) :=
  store.rows.entries.flatMap fun row => row.2.entries.map fun column => (row.1, column.1, column.2)

theorem mem_columns_of_contents {place : Place} {value : Bytes}
    (found : store.contents place = some value) : ∃ versions,
      (place.row, place.column, versions) ∈ store.columns ∧
        versions.find? place.version = some value := by
  obtain ⟨columns, versions, row, column, here⟩ := find?_of_contents found
  refine ⟨versions, ?_, here⟩
  rw [MemoryStore.columns, List.mem_flatMap]
  refine ⟨_, (SortedMap.mem_entries_iff ..).2 row, ?_⟩
  exact List.mem_map.2 ⟨_, (SortedMap.mem_entries_iff ..).2 column, rfl⟩

theorem contents_of_mem_columns {row : Bytes} {column : Column} {versions : Versions}
    (mem : (row, column, versions) ∈ store.columns) (version : Version) :
    store.contents ⟨row, column, version⟩ = versions.find? version := by
  obtain ⟨⟨_, columns⟩, rowHere, mem⟩ := List.mem_flatMap.1 mem
  obtain ⟨⟨_, _⟩, columnHere, same⟩ := List.mem_map.1 mem
  cases same
  exact contents_of_find? ((SortedMap.mem_entries_iff ..).1 rowHere)
    ((SortedMap.mem_entries_iff ..).1 columnHere) version

/-- No column holds more versions than the bound. -/
def VersionsWithin (store : MemoryStore) (bound : Nat) : Prop :=
  ∀ held ∈ store.columns, held.2.2.size ≤ bound

instance (store : MemoryStore) (bound : Nat) : Decidable (store.VersionsWithin bound) :=
  inferInstanceAs (Decidable (∀ held ∈ store.columns, held.2.2.size ≤ bound))

def Unused (store : MemoryStore) (version : Version) : Prop :=
  ∀ held ∈ store.columns, held.2.2.find? version = none

instance (store : MemoryStore) (version : Version) : Decidable (store.Unused version) :=
  inferInstanceAs (Decidable (∀ held ∈ store.columns, held.2.2.find? version = none))

theorem Unused.contents_eq_none {version : Version} (unused : store.Unused version) {place : Place}
    (here : place.version = version) : store.contents place = none := by
  cases found : store.contents place with
  | none => rfl
  | some value =>
    obtain ⟨versions, mem, stored⟩ := mem_columns_of_contents found
    rw [here, unused _ mem] at stored
    cases stored

theorem VersionsWithin.fewAbove {bound : Nat} (within : store.VersionsWithin bound)
    (admits : Version → Bool) {place : Place} {value : Bytes}
    (stood : store.contents place = some value) : store.contents.FewAbove admits place bound := by
  intro above distinct inside
  obtain ⟨versions, held, found⟩ := mem_columns_of_contents stood
  have member : ∀ {version : Version} {value : Bytes},
      versions.find? version = some value → version ∈ versions.keys := by
    intro version value found
    exact List.mem_map.2 ⟨(version, value), (SortedMap.mem_entries_iff ..).2 found, rfl⟩
  have here : place.version ∉ above := by
    intro mem
    have newer := Version.lt_iff.1 (inside place.version mem).1
    omega
  have stored : ∀ version ∈ place.version :: above, version ∈ versions.keys := by
    intro version mem
    rcases List.mem_cons.1 mem with rfl | mem
    · exact member found
    · obtain ⟨_, _, present⟩ := inside version mem
      obtain ⟨value, there⟩ := Option.isSome_iff_exists.1 present
      rw [contents_of_mem_columns held] at there
      exact member there
  have room := List.Nodup.length_le_of_subset (List.nodup_cons.2 ⟨here, distinct⟩) stored
  rw [List.length_cons, SortedMap.keys, List.length_map] at room
  exact Nat.lt_of_lt_of_le room (within _ held)

theorem contents_of_mem_get {request : Get} {cell : Cell}
    (mem : cell ∈ (store.get request).cells) :
    store.contents ⟨request.row, cell.column, cell.version⟩ = some cell.value ∧
      request.filter.admitsColumn cell.column ∧ request.filter.admitsVersion cell.version := by
  obtain ⟨columns, versions, row, admitted, column, member⟩ := mem_get_iff.1 mem
  obtain ⟨entry, seen⟩ := List.mem_filter.1 (List.mem_of_mem_take member)
  exact ⟨(contents_of_find? row column _).trans ((SortedMap.mem_entries_iff ..).1 entry),
    admitted, seen⟩

/-- A read leaves no stored and admitted cell out unless too many newer ones come before it. -/
theorem mem_get_of_contents {request : Get} {column : Column} {version : Version} {value : Bytes}
    (found : store.contents ⟨request.row, column, version⟩ = some value)
    (admitted : request.filter.admitsColumn column)
    (seen : request.filter.admitsVersion version)
    (few : store.contents.FewAbove request.filter.admitsVersion ⟨request.row, column, version⟩
      request.filter.maxVersions) :
    (⟨column, version, value⟩ : Cell) ∈ (store.get request).cells := by
  obtain ⟨columns, versions, row, here, stored⟩ := find?_of_contents found
  refine mem_get_iff.2 ⟨columns, versions, row, admitted, here, ?_⟩
  refine mem_take_of_few (versions.ascending.filter _)
    (List.mem_filter.2 ⟨(SortedMap.mem_entries_iff ..).2 stored, seen⟩)
    fun before sorted inside => ?_
  have distinct : (before.map (·.1)).Nodup := by
    refine List.pairwise_map.2 (sorted.imp fun order same => ?_)
    simp [same, Std.ReflCmp.compare_self] at order
  have short := few (before.map (·.1)) distinct fun newer mem => by
    obtain ⟨entry, member, rfl⟩ := List.mem_map.1 mem
    obtain ⟨kept, order⟩ := inside entry member
    obtain ⟨present, admitted⟩ := List.mem_filter.1 kept
    have there : store.contents ⟨request.row, column, entry.1⟩ = some entry.2 :=
      (contents_of_find? row here entry.1).trans ((SortedMap.mem_entries_iff ..).1 present)
    exact ⟨Version.newestFirst_eq_lt.1 order, admitted, Option.isSome_iff_exists.2 ⟨_, there⟩⟩
  simpa using short

end MemoryStore

end SnapshotTable
