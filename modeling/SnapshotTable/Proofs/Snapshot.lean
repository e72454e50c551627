import Mathlib.Data.List.Sort
import SnapshotTable.Proofs.Binding
import SnapshotTable.Proofs.Reads
import SnapshotTable.Proofs.Stamp
import SnapshotTable.Sample
import SnapshotTable.Table.Reading

/-!
Reads in the flat view, exactly: of each column the newest admitted cells, each once and in order. A
read is therefore settled by the cells that its filter admits, and a read through a table by those
that its transaction sees.
-/

namespace SnapshotTable

set_option autoImplicit false

namespace Cell

/-- Comes first in a row: a lesser column, or a newer version of the same one. -/
def Before (first second : Cell) : Prop :=
  compare first.column second.column = .lt ∨
    (first.column = second.column ∧ second.version < first.version)

theorem order_eq_lt {first second : Cell} : order first second = .lt ↔ first.Before second := by
  have versions : compare second.version first.version = .lt ↔ second.version < first.version :=
    Version.newestFirst_eq_lt
  have columns : compareOn column first second = .eq ↔ first.column = second.column :=
    Std.LawfulEqOrd.compare_eq_iff_eq
  rw [order, compareLex, Ordering.then_eq_lt, columns, versions]
  rfl

instance : Std.Asymm Before where
  asymm first second before := by
    rw [← order_eq_lt] at before ⊢
    exact Std.OrientedCmp.not_lt_of_lt before

end Cell

namespace Columns

theorem pairwise_cells (columns : Columns) (admits : Column → Bool)
    {choose : List (Version × Bytes) → List (Version × Bytes)}
    (chosen : ∀ versions, (choose versions).Sublist versions) :
    (columns.cells admits choose).Pairwise Cell.Before := by
  rw [cells, List.pairwise_flatMap]
  constructor
  · rintro ⟨column, versions⟩ _
    dsimp only
    by_cases admitted : admits column
    · rw [if_pos admitted]
      refine List.pairwise_map.2 ((versions.ascending.sublist (chosen _)).imp fun newer => ?_)
      exact .inr ⟨rfl, Version.newestFirst_eq_lt.1 newer⟩
    · rw [if_neg admitted]
      exact .nil
  · refine columns.ascending.imp fun {first second} before cell mem other mem' => ?_
    have here : ∀ {held : Column × Versions} {cell : Cell},
        cell ∈ (if admits held.1 then
          (choose held.2.entries).map fun entry => (⟨held.1, entry.1, entry.2⟩ : Cell)
        else []) → cell.column = held.1 := by
      intro held cell mem
      split at mem
      · obtain ⟨_, _, rfl⟩ := List.mem_map.1 mem
        rfl
      · cases mem
    refine .inl ?_
    rw [here mem, here mem']
    exact before

end Columns

theorem RowResult.cells_ofCells {row : Bytes} {cells : List Cell}
    (ordered : cells.Pairwise Cell.Before) : (RowResult.ofCells row cells).cells = cells :=
  Cell.sort_eq_self (ordered.imp fun before => by rw [Cell.order_eq_lt.2 before]; rfl)

theorem few_of_mem_take {α : Type} {r : α → α → Prop} {elements : List α} {element : α}
    {bound : Nat} (sorted : elements.Pairwise r) (mem : element ∈ elements.take bound) :
    ∃ before : List α, before.length < bound ∧
      ∀ other ∈ elements, other ∈ before ∨ other = element ∨ r element other := by
  obtain ⟨before, after, split⟩ := List.append_of_mem mem
  refine ⟨before, ?_, fun other member => ?_⟩
  · have short := List.length_take_le bound elements
    rw [split, List.length_append, List.length_cons] at short
    omega
  · rw [← List.take_append_drop bound elements, split, List.append_assoc] at member sorted
    rcases List.mem_append.1 member with inside | member
    · exact .inl inside
    · have following := (List.pairwise_append.1 sorted).2.1
      rcases List.mem_cons.1 member with same | later
      · exact .inr (.inl same)
      · exact .inr (.inr ((List.pairwise_cons.1 following).1 other later))

namespace MemoryStore

variable {store other : MemoryStore}

theorem pairwise_get (store : MemoryStore) (request : Get) :
    (store.get request).cells.Pairwise Cell.Before := by
  rw [get]
  split
  · rename_i columns _
    have ordered : (columns.read request.filter).Pairwise Cell.Before :=
      columns.pairwise_cells _ fun versions =>
        (List.take_sublist _ _).trans List.filter_sublist
    rw [readRow, RowResult.cells_ofCells ordered]
    exact ordered
  · exact .nil

theorem fewAbove_of_mem_get {request : Get} {cell : Cell}
    (mem : cell ∈ (store.get request).cells) :
    store.contents.FewAbove request.filter.admitsVersion
      ⟨request.row, cell.column, cell.version⟩ request.filter.maxVersions := by
  obtain ⟨columns, versions, row, _, column, member⟩ := mem_get_iff.1 mem
  obtain ⟨before, short, split⟩ := few_of_mem_take (versions.ascending.filter _) member
  intro above distinct inside
  have listed : ∀ version ∈ above, version ∈ before.map (·.1) := by
    intro version mem
    obtain ⟨newer, seen, present⟩ := inside version mem
    obtain ⟨value, found⟩ := Option.isSome_iff_exists.1 present
    have stored := (SortedMap.mem_entries_iff ..).2 ((contents_of_find? row column _).symm.trans found)
    rcases split _ (List.mem_filter.2 ⟨stored, seen⟩) with earlier | same | later
    · exact List.mem_map.2 ⟨_, earlier, rfl⟩
    · cases same
      exact absurd (Version.lt_iff.1 newer) (Nat.lt_irrefl _)
    · have older := Version.lt_iff.1 (Version.newestFirst_eq_lt.1 later)
      have newer := Version.lt_iff.1 newer
      exact absurd newer (Nat.lt_asymm older)
  have room := distinct.length_le_of_subset listed
  rw [List.length_map] at room
  exact Nat.lt_of_le_of_lt room short

/-- A read returns the stored cells that its filter admits, but of each column only the newest. -/
theorem mem_get_iff_contents {request : Get} {cell : Cell} :
    cell ∈ (store.get request).cells ↔
      store.contents ⟨request.row, cell.column, cell.version⟩ = some cell.value ∧
        request.filter.admitsColumn cell.column ∧ request.filter.admitsVersion cell.version ∧
          store.contents.FewAbove request.filter.admitsVersion
            ⟨request.row, cell.column, cell.version⟩ request.filter.maxVersions := by
  constructor
  · intro mem
    obtain ⟨found, admitted, seen⟩ := contents_of_mem_get mem
    exact ⟨found, admitted, seen, fewAbove_of_mem_get mem⟩
  · rintro ⟨found, admitted, seen, few⟩
    exact mem_get_of_contents found admitted seen few

end MemoryStore

def RowResult.Before (first second : RowResult) : Prop := compare first.row second.row = .lt

instance : Std.Asymm RowResult.Before where
  asymm _ _ before := Std.OrientedCmp.not_lt_of_lt before

theorem RowResult.ext_mem {left right : RowResult} (row : left.row = right.row)
    (leftOrdered : left.cells.Pairwise Cell.Before)
    (rightOrdered : right.cells.Pairwise Cell.Before)
    (same : ∀ cell, cell ∈ left.cells ↔ cell ∈ right.cells) : left = right := by
  have cells : left.cells = right.cells := leftOrdered.eq_of_mem_iff rightOrdered same
  cases left
  cases right
  simp_all

namespace MemoryStore

variable {store other : MemoryStore}

theorem get_congr {request : Get}
    (same : ∀ column version, request.filter.admitsColumn column →
      request.filter.admitsVersion version →
        store.contents ⟨request.row, column, version⟩ =
          other.contents ⟨request.row, column, version⟩) :
    store.get request = other.get request := by
  refine RowResult.ext_mem ((store.row_get request).trans (other.row_get request).symm)
    (store.pairwise_get request) (other.pairwise_get request) fun cell => ?_
  rw [mem_get_iff_contents, mem_get_iff_contents]
  have few : request.filter.admitsColumn cell.column →
      (store.contents.FewAbove request.filter.admitsVersion
          ⟨request.row, cell.column, cell.version⟩ request.filter.maxVersions ↔
        other.contents.FewAbove request.filter.admitsVersion
          ⟨request.row, cell.column, cell.version⟩ request.filter.maxVersions) := by
    intro admitted
    refine forall_congr' fun above => forall_congr' fun _ => imp_congr_left
      (forall_congr' fun version => forall_congr' fun _ => and_congr_right fun _ =>
        and_congr_right fun seen => ?_)
    dsimp only
    rw [same cell.column version admitted seen]
  constructor
  · rintro ⟨found, admitted, seen, limited⟩
    have here := same cell.column cell.version admitted seen
    exact ⟨here ▸ found, admitted, seen, (few admitted).1 limited⟩
  · rintro ⟨found, admitted, seen, limited⟩
    have here := same cell.column cell.version admitted seen
    exact ⟨here.trans found, admitted, seen, (few admitted).2 limited⟩

theorem mem_scan_iff {request : Scan} {result : RowResult} :
    result ∈ store.scan request ↔ request.containsRow result.row ∧ result.cells ≠ [] ∧
      result = store.get { row := result.row, filter := request.filter } := by
  simp only [scan, List.mem_filter, List.mem_map, Prod.exists]
  constructor
  · rintro ⟨⟨row, columns, ⟨held, inside⟩, rfl⟩, nonempty⟩
    refine ⟨inside, by simpa [RowResult.isEmpty] using nonempty, ?_⟩
    have here : store.rows.find? row = some columns := (SortedMap.mem_entries_iff ..).1 held
    change _ = store.get { row := row, filter := request.filter }
    simp only [get, here]
  · rintro ⟨inside, nonempty, same⟩
    cases held : store.rows.find? result.row with
    | none =>
      rw [get] at same
      simp only [held] at same
      rw [same] at nonempty
      exact absurd rfl nonempty
    | some columns =>
      refine ⟨⟨result.row, columns, ⟨(SortedMap.mem_entries_iff ..).2 held, inside⟩, ?_⟩, by
        simpa [RowResult.isEmpty] using nonempty⟩
      rw [get] at same
      simp only [held] at same
      exact same.symm

theorem pairwise_scan (store : MemoryStore) (request : Scan) :
    (store.scan request).Pairwise RowResult.Before := by
  rw [scan]
  refine List.Pairwise.filter _ (List.pairwise_map.2 ?_)
  exact (store.rows.ascending.filter _).imp id

theorem scan_congr {request : Scan}
    (same : ∀ place : Place, request.containsRow place.row →
      request.filter.admitsColumn place.column → request.filter.admitsVersion place.version →
        store.contents place = other.contents place) :
    store.scan request = other.scan request := by
  refine (store.pairwise_scan request).eq_of_mem_iff (other.pairwise_scan request)
    fun result => ?_
  rw [mem_scan_iff, mem_scan_iff]
  refine and_congr_right fun inside => ?_
  have read : store.get { row := result.row, filter := request.filter } =
      other.get { row := result.row, filter := request.filter } :=
    get_congr fun column version admitted seen =>
      same ⟨result.row, column, version⟩ inside admitted seen
  rw [read]

end MemoryStore

namespace Table

variable {σ : Type} {table : Table} {tx : Transaction} {log : PendingLog}

theorem reading_of_made {ρ α β : Type} {make : Transaction → β → Except CodecError ρ}
    {request : β} {made : ρ} (bound : table.binding = some ⟨tx, log⟩)
    (done : make tx request = .ok made) (gets : ρ → List Get)
    (perform : ρ → σ → Except StoreError α × σ) (store : σ) :
    (table.reading (table.made make request) gets perform store).1 =
      (perform made store).1.mapError .store := by
  have asked : table.made make request = .ok made := by
    rw [made_of_bound bound, done]
    rfl
  rw [asked, reading]
  split <;> (rename_i eq; rw [eq]; rfl)

variable [CellStore σ]

/-- A read through a bound table is the store's own read of what the transaction sees. -/
theorem get_reply (bound : table.binding = some ⟨tx, log⟩) (valid : tx.validate = .ok ())
    (request : Get) (store : σ) : ∃ stamped : Get, stamped.row = request.row ∧
      stamped.filter = tx.restrict request.filter ∧
        (table.get request store).1 = (CellStore.get stamped store).1.mapError .store := by
  obtain ⟨stamped, made, row, filter⟩ : ∃ stamped : Get, tx.snapshotGet request = .ok stamped ∧
      stamped.row = request.row ∧ stamped.filter = tx.restrict request.filter :=
    ⟨_, Descriptor.attach_of_valid valid _, rfl, rfl⟩
  exact ⟨stamped, row, filter, reading_of_made bound made _ _ store⟩

theorem scan_reply (bound : table.binding = some ⟨tx, log⟩) (valid : tx.validate = .ok ())
    (request : Scan) (store : σ) : ∃ stamped : Scan, stamped.start = request.start ∧
      stamped.stop = request.stop ∧ stamped.filter = tx.restrict request.filter ∧
        (table.scan request store).1 = (CellStore.scan stamped store).1.mapError .store := by
  obtain ⟨stamped, made, start, stop, filter⟩ : ∃ stamped : Scan,
      tx.snapshotScan request = .ok stamped ∧ stamped.start = request.start ∧
        stamped.stop = request.stop ∧ stamped.filter = tx.restrict request.filter :=
    ⟨_, Descriptor.attach_of_valid valid _, rfl, rfl, rfl⟩
  exact ⟨stamped, start, stop, filter, reading_of_made bound made _ _ store⟩

variable {store : MemoryStore}

theorem get_of_open (bound : table.binding = some ⟨tx, log⟩) (valid : tx.validate = .ok ())
    (opened : store.closed = false) (request : Get) : (table.get request store).1 =
      .ok (store.get { row := request.row, filter := tx.restrict request.filter }) := by
  obtain ⟨stamped, row, filter, reply⟩ := get_reply bound valid request store
  rw [reply, ← row, ← filter]
  change ((store.perform (.get stamped)).1).mapError TableError.store = _
  simp only [MemoryStore.perform, opened]
  rfl

theorem scan_of_open (bound : table.binding = some ⟨tx, log⟩) (valid : tx.validate = .ok ())
    (opened : store.closed = false) (request : Scan) : (table.scan request store).1 =
      .ok (store.scan { request with filter := tx.restrict request.filter }) := by
  obtain ⟨stamped, start, stop, filter, reply⟩ := scan_reply bound valid request store
  have same : store.scan { request with filter := tx.restrict request.filter } =
      store.scan stamped := by
    simp only [MemoryStore.scan, Scan.containsRow, start, stop, filter]
  rw [reply, same]
  change ((store.perform (.scan stamped)).1).mapError TableError.store = _
  simp only [MemoryStore.perform, opened]
  rfl

theorem get_of_closed (bound : table.binding = some ⟨tx, log⟩) (valid : tx.validate = .ok ())
    (closed : store.closed) (request : Get) :
    (table.get request store).1 = .error (.store .closed) := by
  obtain ⟨stamped, _, _, reply⟩ := get_reply bound valid request store
  rw [reply]
  change ((store.perform (.get stamped)).1).mapError TableError.store = _
  simp only [MemoryStore.perform, closed]
  rfl

theorem scan_of_closed (bound : table.binding = some ⟨tx, log⟩) (valid : tx.validate = .ok ())
    (closed : store.closed) (request : Scan) :
    (table.scan request store).1 = .error (.store .closed) := by
  obtain ⟨stamped, _, _, _, reply⟩ := scan_reply bound valid request store
  rw [reply]
  change ((store.perform (.scan stamped)).1).mapError TableError.store = _
  simp only [MemoryStore.perform, closed]
  rfl

end Table

/-- The versions that a read of a transaction is to show: those in its snapshot that the caller
does not leave out. -/
def Transaction.shows (tx : Transaction) (filter : Filter) (version : Version) : Bool :=
  decide (version ≤ tx.readPointer) && !tx.excluded.contains version &&
    filter.ceiling.all (fun ceiling => decide (version ≤ ceiling)) &&
      !filter.excluded.contains version

theorem Transaction.admitsVersion_eq_shows (tx : Transaction) (filter : Filter) :
    (tx.restrict filter).admitsVersion = tx.shows filter := by
  funext version
  rw [tx.admitsVersion_restrict, Filter.admitsVersion, sees, excludes, shows, Bool.and_comm,
    Bool.and_assoc, Bool.and_assoc, Bool.and_assoc]

theorem Transaction.sees_of_admitted (tx : Transaction) {filter : Filter} {version : Version}
    (admitted : (tx.restrict filter).admitsVersion version) : tx.sees version := by
  rw [tx.admitsVersion_restrict, Bool.and_eq_true] at admitted
  exact admitted.2

theorem Transaction.sees_of_shows (tx : Transaction) {filter : Filter} {version : Version}
    (shown : tx.shows filter version) : tx.sees version := by
  rw [← tx.admitsVersion_eq_shows] at shown
  exact tx.sees_of_admitted shown

namespace Table

section Agree

variable {table table' : Table} {tx : Transaction} {log log' : PendingLog}
  {store store' : MemoryStore} (bound : table.binding = some ⟨tx, log⟩)
  (bound' : table'.binding = some ⟨tx, log'⟩) (valid : tx.validate = .ok ())
  (opened : store.closed = false) (opened' : store'.closed = false)

include bound bound' valid opened opened'

theorem get_congr {request : Get}
    (agree : ∀ place : Place, place.row = request.row → request.filter.admitsColumn place.column →
      tx.shows request.filter place.version → store.contents place = store'.contents place) :
    (table.get request store).1 = (table'.get request store').1 := by
  rw [get_of_open bound valid opened, get_of_open bound' valid opened']
  congr 1
  apply MemoryStore.get_congr
  intro column version admitted shown
  rw [tx.admitsVersion_eq_shows] at shown
  exact agree ⟨request.row, column, version⟩ rfl admitted shown

theorem scan_congr {request : Scan}
    (agree : ∀ place : Place, request.containsRow place.row →
      request.filter.admitsColumn place.column → tx.shows request.filter place.version →
        store.contents place = store'.contents place) :
    (table.scan request store).1 = (table'.scan request store').1 := by
  rw [scan_of_open bound valid opened, scan_of_open bound' valid opened']
  congr 1
  apply MemoryStore.scan_congr
  intro place inside admitted shown
  rw [tx.admitsVersion_eq_shows] at shown
  exact agree place inside admitted shown

end Agree

end Table

/-- Asks for the newest cell that the column of a place holds up to the place. -/
def Place.probe (place : Place) : Get where
  row := place.row
  filter := { selectors := [.column place.column], ceiling := some place.version }

theorem MemoryStore.mem_probe_iff (store : MemoryStore) {tx : Transaction} {place : Place}
    (seen : tx.sees place.version) {value : Bytes} :
    ⟨place.column, place.version, value⟩ ∈ (store.get {
      row := place.probe.row
      filter := tx.restrict place.probe.filter }).cells ↔ store.contents place = some value := by
  have admitted : (tx.restrict place.probe.filter).admitsColumn place.column := by
    simp [Transaction.restrict, Place.probe, Filter.admitsColumn, Selector.matchesColumn]
  have shown : ∀ version, (tx.restrict place.probe.filter).admitsVersion version =
      (decide (version ≤ place.version) && tx.sees version) := by
    intro version
    rw [tx.admitsVersion_restrict]
    simp [Filter.admitsVersion, Place.probe, SortedMap.contains]
  have few : store.contents.FewAbove (tx.restrict place.probe.filter).admitsVersion place 1 := by
    intro above _ inside
    cases above with
    | nil => exact Nat.one_pos
    | cons version rest =>
      obtain ⟨newer, admits, _⟩ := inside version (List.mem_cons_self ..)
      rw [shown, Bool.and_eq_true, decide_eq_true_eq] at admits
      exact absurd (Version.lt_iff.1 newer) (Nat.not_lt.2 (Version.le_iff.1 admits.1))
  have here : (tx.restrict place.probe.filter).admitsVersion place.version := by
    simp [shown, seen, Version.le_iff]
  rw [mem_get_iff_contents]
  exact ⟨fun read => read.1, fun found => ⟨found, admitted, here, few⟩⟩

/-- A read through a table with a transaction is answered, and returns, in strict order, just the
cells of the row that stand in columns the caller selects, at versions that the transaction is to
show, with fewer than the asked number of shown versions above them. -/
theorem get_returns_shown_cells {table : Table} {tx : Transaction} {log : PendingLog}
    {store : MemoryStore} (bound : table.binding = some ⟨tx, log⟩) (valid : tx.validate = .ok ())
    (opened : store.closed = false) (request : Get) :
    ∃ result, (table.get request store).1 = .ok result ∧ result.row = request.row ∧
      result.cells.Pairwise Cell.Before ∧ ∀ cell, cell ∈ result.cells ↔
        store.contents ⟨request.row, cell.column, cell.version⟩ = some cell.value ∧
          request.filter.admitsColumn cell.column ∧ tx.shows request.filter cell.version ∧
            store.contents.FewAbove (tx.shows request.filter)
              ⟨request.row, cell.column, cell.version⟩ request.filter.maxVersions := by
  refine ⟨_, Table.get_of_open bound valid opened request, store.row_get _,
    store.pairwise_get _, fun cell => ?_⟩
  rw [MemoryStore.mem_get_iff_contents, tx.admitsVersion_eq_shows]
  rfl

/-- The newest two cells that are shown stand below four that are not: one above the read pointer,
one above the caller's ceiling, and one that either of the two excludes. -/
theorem get_returns_cells_below_hidden_ones :
    let tx := Transaction.new ⟨6⟩ ⟨9⟩ [⟨3⟩]
    let store := Sample.store ([1, 2, 3, 4, 5, 8].map fun version =>
      { row := "r", version := version, value := [version.toUInt8] })
    let request : Get := { row := Bytes.ofText "r", filter :=
      { ceiling := some ⟨4⟩, excluded := SortedSet.ofMembers [⟨4⟩], maxVersions := 2 } }
    ∃ result, ((({} : Table).bind tx).2.get request store).1 = .ok result ∧
      result.cells = [⟨Sample.column, ⟨2⟩, [2]⟩, ⟨Sample.column, ⟨1⟩, [1]⟩] ∧
      ∀ cell ∈ result.cells, tx.shows request.filter cell.version := by
  intro tx store request
  have bound : (({} : Table).bind tx).2.binding = some ⟨tx, []⟩ := rfl
  have opened : store.closed = false := by decide +kernel
  obtain ⟨result, read, _, _, exact⟩ :=
    get_returns_shown_cells bound (by decide) opened request
  refine ⟨result, read, ?_, fun cell mem => ((exact cell).1 mem).2.2.1⟩
  have evaluated : ((({} : Table).bind tx).2.get request store).1.toOption.map (·.cells) =
      some [⟨Sample.column, ⟨2⟩, [2]⟩, ⟨Sample.column, ⟨1⟩, [1]⟩] := by decide +kernel
  rw [read] at evaluated
  exact Option.some.inj evaluated

end SnapshotTable
