import Mathlib.Data.List.Nodup
import SnapshotTable.Proofs.Calls
import SnapshotTable.Proofs.Snapshot

/-!
What a delete captures of its row when it enters the log. One read of the row makes both images: it
takes so many versions of each column, the newest below the write pointer, whether the transaction
sees them or not. So the undo image lacks what a column holds beyond that number, and a version that
the transaction does not see takes the place of one that it sees in the pre-image.
-/

namespace SnapshotTable

set_option autoImplicit false

namespace MemoryStore

variable {store : MemoryStore}

def versionsOf (store : MemoryStore) (row : Bytes) (column : Column) : List Version :=
  ((store.rows.find? row).bind (·.find? column)).elim [] SortedMap.keys

def countOf (store : MemoryStore) (admits : Version → Bool) (row : Bytes) (column : Column) : Nat :=
  (store.versionsOf row column).countP admits

/-- How many versions above a place in its column a test admits. -/
def countAbove (store : MemoryStore) (admits : Version → Bool) (place : Place) : Nat :=
  store.countOf (fun version => decide (place.version < version) && admits version) place.row
    place.column

theorem mem_versionsOf_iff (store : MemoryStore) (row : Bytes) (column : Column)
    (version : Version) :
    version ∈ store.versionsOf row column ↔ (store.contents ⟨row, column, version⟩).isSome := by
  simp only [versionsOf, contents, cell?, Columns.cell?, bind]
  cases store.rows.find? row with
  | none => simp
  | some columns =>
    cases here : columns.find? column with
    | none => simp [here]
    | some versions =>
      simp only [Option.bind_some, here, Option.elim_some, SortedMap.mem_keys_iff]
      exact Option.isSome_iff_exists.symm

theorem newer_versionsOf (store : MemoryStore) (row : Bytes) (column : Column) :
    (store.versionsOf row column).Pairwise fun newer older => older < newer := by
  rw [versionsOf]
  cases (store.rows.find? row).bind (·.find? column) with
  | none => exact .nil
  | some versions =>
    exact List.pairwise_map.2 (versions.ascending.imp fun before =>
      Version.newestFirst_eq_lt.1 before)

theorem nodup_versionsOf (store : MemoryStore) (row : Bytes) (column : Column) :
    (store.versionsOf row column).Nodup :=
  (store.newer_versionsOf row column).imp fun older same => by
    rw [same, Version.lt_iff] at older
    exact Nat.lt_irrefl _ older

theorem fewAbove_iff {admits : Version → Bool} {place : Place} {bound : Nat} :
    store.contents.FewAbove admits place bound ↔ store.countAbove admits place < bound := by
  rw [countAbove, countOf, List.countP_eq_length_filter]
  constructor
  · intro few
    apply few _ ((store.nodup_versionsOf _ _).filter _)
    intro version mem
    obtain ⟨held, above⟩ := List.mem_filter.1 mem
    rw [Bool.and_eq_true, decide_eq_true_eq] at above
    exact ⟨above.1, above.2, (store.mem_versionsOf_iff _ _ _).1 held⟩
  · intro short above distinct inside
    refine Nat.lt_of_le_of_lt (distinct.length_le_of_subset fun version mem => ?_) short
    obtain ⟨newer, admitted, held⟩ := inside version mem
    refine List.mem_filter.2 ⟨(store.mem_versionsOf_iff _ _ _).2 held, ?_⟩
    simp [newer, admitted]

theorem countAbove_eq (store : MemoryStore) (admits : Version → Bool) (place : Place) :
    store.countAbove admits place =
      ((store.versionsOf place.row place.column).filter admits).countP
        fun version => decide (place.version < version) :=
  List.countP_filter.symm

theorem countAbove_lt_countOf {admits : Version → Bool} {place : Place}
    (held : (store.contents place).isSome) (admitted : admits place.version) :
    store.countAbove admits place < store.countOf admits place.row place.column := by
  rw [countAbove_eq, countOf, List.countP_eq_length_filter (p := admits)]
  refine Nat.lt_of_le_of_ne List.countP_le_length fun all => ?_
  have mem := List.mem_filter.2 ⟨(store.mem_versionsOf_iff _ _ _).2 held, admitted⟩
  have newer := List.countP_eq_length.1 all _ mem
  rw [decide_eq_true_eq, Version.lt_iff] at newer
  exact Nat.lt_irrefl _ newer

theorem exists_oldest {admits : Version → Bool} {row : Bytes} {column : Column}
    (some : 0 < store.countOf admits row column) : ∃ version,
      (store.contents ⟨row, column, version⟩).isSome ∧ admits version ∧
        store.countOf admits row column = store.countAbove admits ⟨row, column, version⟩ + 1 := by
  have counted : store.countOf admits row column =
      ((store.versionsOf row column).filter admits).length := List.countP_eq_length_filter
  have ordered := (store.newer_versionsOf row column).filter admits
  obtain nothing | ⟨newer, oldest, split⟩ :=
    List.eq_nil_or_concat ((store.versionsOf row column).filter admits)
  · rw [counted, nothing] at some
    cases some
  · have mem : oldest ∈ (store.versionsOf row column).filter admits := by simp [split]
    obtain ⟨held, admitted⟩ := List.mem_filter.1 mem
    refine ⟨oldest, (store.mem_versionsOf_iff _ _ _).1 held, admitted, ?_⟩
    rw [split, List.concat_eq_append] at ordered
    have above : ∀ version ∈ newer, decide (oldest < version) = true := fun version mem =>
      decide_eq_true ((List.pairwise_append.1 ordered).2.2 version mem oldest (by simp))
    have itself : decide (oldest < oldest) = false := by simp [Version.lt_iff]
    rw [counted, countAbove_eq, split, List.concat_eq_append, List.countP_append,
      List.countP_eq_length.2 above]
    simp [itself]

theorem countAbove_le_of_imp {admits more : Version → Bool} (place : Place)
    (implies : ∀ version, admits version → more version) :
    store.countAbove admits place ≤ store.countAbove more place := by
  refine List.countP_mono_left fun version _ above => ?_
  rw [Bool.and_eq_true] at above ⊢
  exact ⟨above.1, implies version above.2⟩

/-- How many versions below a pointer stand above a cell in its column. -/
def depth (store : MemoryStore) (pointer : Version) (row : Bytes) (cell : Cell) : Nat :=
  store.countAbove (fun version => decide (version < pointer)) ⟨row, cell.column, cell.version⟩

/-- What a delete reads of its row: of each column so many versions, the newest below a pointer. -/
def imageBelow (store : MemoryStore) (pointer : Version) (row : Bytes) (maxVersions : Nat) :
    RowResult :=
  store.get
    { row := row, filter := { ceiling := some pointer.previous, maxVersions := maxVersions } }

theorem mem_imageBelow_iff {pointer : Version} (positive : Version.zero < pointer) {row : Bytes}
    {maxVersions : Nat} {cell : Cell} :
    cell ∈ (store.imageBelow pointer row maxVersions).cells ↔
      store.contents ⟨row, cell.column, cell.version⟩ = some cell.value ∧ cell.version < pointer ∧
        store.depth pointer row cell < maxVersions := by
  have admits : ({ ceiling := some pointer.previous, maxVersions := maxVersions } :
      Filter).admitsVersion = fun version => decide (version < pointer) := by
    funext version
    simp [Filter.admitsVersion, SortedMap.contains, Version.le_previous_iff positive]
  rw [imageBelow, mem_get_iff_contents, admits, fewAbove_iff]
  simp [Filter.admitsColumn, depth]

theorem mem_snapshot_iff {tx : Transaction} {row : Bytes} {maxVersions : Nat} {cell : Cell} :
    cell ∈ (store.get { row := row, filter := tx.restrict { maxVersions := maxVersions } }).cells ↔
      store.contents ⟨row, cell.column, cell.version⟩ = some cell.value ∧ tx.sees cell.version ∧
        store.countAbove tx.sees ⟨row, cell.column, cell.version⟩ < maxVersions := by
  have admits : (tx.restrict { maxVersions := maxVersions }).admitsVersion = tx.sees := by
    funext version
    rw [tx.admitsVersion_restrict]
    simp [Filter.admitsVersion, SortedMap.contains]
  rw [mem_get_iff_contents, admits, fewAbove_iff]
  simp [Transaction.restrict, Filter.admitsColumn]

end MemoryStore

theorem Transaction.lt_of_sees {tx : Transaction} {version : Version} (seen : tx.sees version)
    (ahead : tx.readPointer < tx.writePointer) : version < tx.writePointer := by
  rw [Transaction.sees, Bool.and_eq_true, decide_eq_true_eq] at seen
  exact Version.lt_iff.2 (Nat.lt_of_le_of_lt (Version.le_iff.1 seen.1) (Version.lt_iff.1 ahead))

namespace MemoryStore

variable {store : MemoryStore}

/-- The versions that a transaction sees in a column are some of those below its write pointer. So
what it sees of an image is the part of its own read that the limit of the image leaves. -/
theorem mem_visiblePart_iff {tx : Transaction} (ahead : tx.readPointer < tx.writePointer)
    {row : Bytes} {maxVersions : Nat} {cell : Cell} :
    cell ∈ (tx.visiblePart (store.imageBelow tx.writePointer row maxVersions)).cells ↔
      cell ∈ (store.get { row := row, filter := tx.restrict { maxVersions := maxVersions } }).cells ∧
        store.depth tx.writePointer row cell < maxVersions := by
  have positive : Version.zero < tx.writePointer :=
    Version.lt_iff.2 (Nat.lt_of_le_of_lt (Nat.zero_le _) (Version.lt_iff.1 ahead))
  have deeper : store.countAbove tx.sees ⟨row, cell.column, cell.version⟩ ≤
      store.depth tx.writePointer row cell :=
    countAbove_le_of_imp _ fun _ seen => decide_eq_true (Transaction.lt_of_sees seen ahead)
  rw [Transaction.visiblePart, RowResult.filter, List.mem_filter, mem_imageBelow_iff positive,
    mem_snapshot_iff]
  constructor
  · rintro ⟨⟨held, _, near⟩, seen⟩
    exact ⟨⟨held, seen, Nat.lt_of_le_of_lt deeper near⟩, near⟩
  · rintro ⟨⟨held, seen, _⟩, near⟩
    exact ⟨⟨held, Transaction.lt_of_sees seen ahead, near⟩, seen⟩

end MemoryStore

namespace Table

variable {table : Table} {tx : Transaction} {log : PendingLog} {store : MemoryStore}

theorem delete_of_open (bound : table.binding = some ⟨tx, log⟩) (valid : tx.validate = .ok ())
    (opened : store.closed = false) (request : Delete) :
    let image := store.imageBelow tx.writePointer request.row table.config.preImageMaxVersions
    ∃ stamped, tx.stampDelete request = .ok stamped ∧ table.delete request store =
      (.ok (), table.extendLog [.delete stamped (tx.visiblePart image) image], store) := by
  intro image
  obtain ⟨stamped, stamp⟩ : ∃ stamped, tx.stampDelete request = .ok stamped :=
    ⟨_, Descriptor.attach_of_valid valid _⟩
  obtain ⟨read, captured⟩ : ∃ read,
      tx.preImageGet request.row table.config.preImageMaxVersions = .ok read :=
    ⟨_, Descriptor.attach_of_valid valid _⟩
  obtain ⟨row, filter⟩ := Transaction.preImageGet_ok captured
  have same : store.get read = image := by
    simp only [image, MemoryStore.imageBelow, MemoryStore.get, row, filter]
  refine ⟨stamped, stamp, ?_⟩
  simp [delete, write, prepareAll, prepare, bound_eq_ok bound, prepareDelete, captured,
    MemoryStore.get_eq, opened, stamp, same]

theorem delete_of_closed (bound : table.binding = some ⟨tx, log⟩) (valid : tx.validate = .ok ())
    (closed : store.closed) (request : Delete) :
    table.delete request store = (.error (.store .closed), table, store) := by
  obtain ⟨read, captured⟩ : ∃ read,
      tx.preImageGet request.row table.config.preImageMaxVersions = .ok read :=
    ⟨_, Descriptor.attach_of_valid valid _⟩
  simp [delete, write, prepareAll, prepare, bound_eq_ok bound, prepareDelete, captured,
    MemoryStore.get_eq, closed]

end Table

/-- The cell stands in the row of a delete, and making the delete takes it away. -/
def Delete.Removes (delete : Delete) (store : MemoryStore) (cell : Cell) : Prop :=
  store.contents ⟨delete.row, cell.column, cell.version⟩ = some cell.value ∧
    (store.applyDelete delete).contents ⟨delete.row, cell.column, cell.version⟩ = none

/-- All that a delete removes below a pointer is found in an image. -/
def Delete.CoveredBy (delete : Delete) (store : MemoryStore) (pointer : Version)
    (image : RowResult) : Prop :=
  ∀ cell, delete.Removes store cell → cell.version < pointer → cell ∈ image.cells

theorem Transaction.removes_stamped_iff {tx : Transaction} {delete stamped : Delete}
    (done : tx.stampDelete delete = .ok stamped) (store : MemoryStore) (cell : Cell) :
    stamped.Removes store cell ↔
      store.contents ⟨delete.row, cell.column, cell.version⟩ = some cell.value ∧
        cell.version ≤ tx.writePointer ∧ delete.names cell.column := by
  obtain ⟨row, timestamp, scopes⟩ := Transaction.stampDelete_ok done
  rw [Delete.Removes, MemoryStore.contents, MemoryStore.contents, MemoryStore.cell?_applyDelete,
    Transaction.covers_stamped timestamp scopes, row]
  refine and_congr_right fun held => ?_
  simp [held]

/-- A delete through a table logs of what it removes just the cells with few enough versions below
the write pointer above them. So the undo image is whole if and only if none of the named columns
holds more versions below the write pointer than a pre-image may keep. -/
theorem undo_image_whole_iff {table : Table} {tx : Transaction} {log : PendingLog}
    (bound : table.binding = some ⟨tx, log⟩) (valid : tx.validate = .ok ())
    (positive : Version.zero < tx.writePointer) (store : MemoryStore) (request : Delete) :
    let limit := table.config.preImageMaxVersions
    (store.closed → table.delete request store = (.error (.store .closed), table, store)) ∧
      (store.closed = false → ∃ stamped preImage undoImage,
        table.delete request store =
          (.ok (), table.extendLog [.delete stamped preImage undoImage], store) ∧
        (∀ cell, stamped.Removes store cell → cell.version < tx.writePointer →
          (cell ∈ undoImage.cells ↔ store.depth tx.writePointer request.row cell < limit)) ∧
        (stamped.CoveredBy store tx.writePointer undoImage ↔ ∀ column, request.names column →
          store.countOf (fun version => decide (version < tx.writePointer)) request.row column ≤
            limit)) := by
  intro limit
  refine ⟨fun closed => Table.delete_of_closed bound valid closed request, fun opened => ?_⟩
  obtain ⟨stamped, stamp, logged⟩ := Table.delete_of_open bound valid opened request
  have listed : ∀ cell, stamped.Removes store cell → cell.version < tx.writePointer →
      (cell ∈ (store.imageBelow tx.writePointer request.row limit).cells ↔
        store.depth tx.writePointer request.row cell < limit) := by
    intro cell removes older
    have held := ((Transaction.removes_stamped_iff stamp store cell).1 removes).1
    rw [MemoryStore.mem_imageBelow_iff positive]
    exact ⟨fun ⟨_, _, near⟩ => near, fun near => ⟨held, older, near⟩⟩
  refine ⟨stamped, _, _, logged, listed, fun covered column named => ?_, fun within => ?_⟩
  · -- The oldest version of a longer column would be removed, and is not captured.
    by_contra longer
    obtain ⟨version, present, older, count⟩ :=
      MemoryStore.exists_oldest (Nat.lt_of_le_of_lt (Nat.zero_le _) (Nat.lt_of_not_le longer))
    obtain ⟨value, held⟩ := Option.isSome_iff_exists.1 present
    have older : version < tx.writePointer := of_decide_eq_true older
    have removes : stamped.Removes store ⟨column, version, value⟩ :=
      (Transaction.removes_stamped_iff stamp store _).2 ⟨held, Version.le_of_lt older, named⟩
    have near : store.depth tx.writePointer request.row ⟨column, version, value⟩ < limit :=
      (listed _ removes older).1 (covered _ removes older)
    change store.countAbove _ ⟨request.row, column, version⟩ < limit at near
    omega
  · intro cell removes older
    obtain ⟨held, _, named⟩ := (Transaction.removes_stamped_iff stamp store cell).1 removes
    refine (listed cell removes older).2 (Nat.lt_of_lt_of_le ?_ (within cell.column named))
    exact MemoryStore.countAbove_lt_countOf (by simp [held]) (decide_eq_true older)

/-- With three versions of one column and room for two, the delete of another column, of which only
one version was named, has all that it removes in the undo image. -/
theorem undo_image_whole_beside_longer_column :
    let tx := Transaction.new ⟨1⟩ ⟨4⟩ []
    let other := Sample.columnOf "d"
    let store := Sample.store [{ row := "r", version := 1, value := [1] },
      { row := "r", version := 3, value := [3] },
      { row := "r", column := other, version := 1, value := [4] },
      { row := "r", column := other, version := 2, value := [5] },
      { row := "r", column := other, version := 3, value := [6] }]
    let table : Table := (({ config := { preImageMaxVersions := 2 } } : Table).bind tx).2
    let request : Delete :=
      { row := Bytes.ofText "r", scopes := [.version Sample.column ⟨1⟩] }
    ∃ stamped preImage undoImage, table.delete request store =
        (.ok (), table.extendLog [.delete stamped preImage undoImage], store) ∧
      stamped.CoveredBy store tx.writePointer undoImage := by
  intro tx other store table request
  have bound : table.binding = some ⟨tx, []⟩ := rfl
  have opened : store.closed = false := by decide +kernel
  obtain ⟨stamped, preImage, undoImage, logged, _, whole⟩ :=
    (undo_image_whole_iff bound (by decide) (by decide) store request).2 opened
  refine ⟨stamped, preImage, undoImage, logged, whole.2 fun column named => ?_⟩
  have here : Sample.column = column := by
    simpa [request, Delete.names] using named
  subst here
  decide +kernel

/-- With two versions of a column and room for one, the older one is removed by a commit of the
delete and is not in the undo image, so that not even a rollback brings it back. -/
theorem undo_image_misses_older_version :
    let tx := Transaction.new ⟨2⟩ ⟨3⟩ []
    let store := Sample.store [{ row := "r", version := 1, value := [0x76, 0x31] },
      { row := "r", version := 2, value := [0x76, 0x32] }]
    let table : Table := (({ config := { preImageMaxVersions := 1 } } : Table).bind tx).2
    let logged := (table.delete { row := Bytes.ofText "r" } store).2.1
    let place : Place := ⟨Bytes.ofText "r", Sample.column, ⟨1⟩⟩
    store.buffer = [] ∧ place.version < tx.writePointer ∧
      store.contents place = some [0x76, 0x31] ∧ logged.log.length = 1 ∧
      (logged.commit store).2.contents place = none ∧ logged.log.captured? place = none ∧
      (logged.rollback (logged.commit store).2).2.2.contents place = none := by
  decide +kernel

/-- The pre-image of a delete holds the cells that a read of the row with the same limit returns,
but for those above which hidden versions use up the limit. So it is what the read returns if and
only if every cell of the read is among so many newest versions below the write pointer. -/
theorem pre_image_is_snapshot_iff {table : Table} {tx : Transaction} {log : PendingLog}
    (bound : table.binding = some ⟨tx, log⟩) (valid : tx.validate = .ok ())
    (ahead : tx.readPointer < tx.writePointer) (store : MemoryStore) (request : Delete) :
    let limit := table.config.preImageMaxVersions
    let whole : Get := { row := request.row, filter := { maxVersions := limit } }
    (store.closed → table.delete request store = (.error (.store .closed), table, store) ∧
        (table.get whole store).1 = .error (.store .closed)) ∧
      (store.closed = false → ∃ stamped preImage undoImage seen,
        table.delete request store =
          (.ok (), table.extendLog [.delete stamped preImage undoImage], store) ∧
        (table.get whole store).1 = .ok seen ∧
        (∀ cell, cell ∈ seen.cells ↔
          store.contents ⟨request.row, cell.column, cell.version⟩ = some cell.value ∧
            tx.sees cell.version ∧
              store.countAbove tx.sees ⟨request.row, cell.column, cell.version⟩ < limit) ∧
        (∀ cell, cell ∈ preImage.cells ↔
          cell ∈ seen.cells ∧ store.depth tx.writePointer request.row cell < limit) ∧
        (preImage = seen ↔ ∀ cell ∈ seen.cells,
          store.depth tx.writePointer request.row cell < limit)) := by
  intro limit whole
  refine ⟨fun closed => ⟨Table.delete_of_closed bound valid closed request,
    Table.get_of_closed bound valid closed whole⟩, fun opened => ?_⟩
  obtain ⟨stamped, _, logged⟩ := Table.delete_of_open bound valid opened request
  refine ⟨stamped, _, _, _, logged, Table.get_of_open bound valid opened whole,
    fun cell => MemoryStore.mem_snapshot_iff,
    fun cell => MemoryStore.mem_visiblePart_iff ahead, fun same cell mem => ?_, fun near => ?_⟩
  · rw [← same] at mem
    exact (MemoryStore.mem_visiblePart_iff ahead).1 mem |>.2
  · refine RowResult.ext_mem ?_ ((store.pairwise_get _).filter _) (store.pairwise_get _)
      fun cell => ?_
    · exact (store.row_get _).trans
        (store.row_get { row := whole.row, filter := tx.restrict whole.filter }).symm
    · rw [MemoryStore.mem_visiblePart_iff ahead]
      exact ⟨fun both => both.1, fun mem => ⟨mem, near cell mem⟩⟩

/-- A hidden version stands above the two that are seen, and there is room for all three. -/
theorem pre_image_is_snapshot_below_hidden_version :
    let tx := Transaction.new ⟨3⟩ ⟨6⟩ [⟨2⟩]
    let store := Sample.store ([1, 3, 5].map fun version =>
      { row := "r", version := version, value := [version.toUInt8] })
    let table : Table := (({ config := { preImageMaxVersions := 3 } } : Table).bind tx).2
    let request : Delete := { row := Bytes.ofText "r" }
    let whole : Get := { row := request.row, filter := { maxVersions := 3 } }
    ∃ stamped preImage undoImage, table.delete request store =
        (.ok (), table.extendLog [.delete stamped preImage undoImage], store) ∧
      (table.get whole store).1 = .ok preImage ∧
      preImage.cells = [⟨Sample.column, ⟨3⟩, [3]⟩, ⟨Sample.column, ⟨1⟩, [1]⟩] := by
  intro tx store table request whole
  have bound : table.binding = some ⟨tx, []⟩ := rfl
  have opened : store.closed = false := by decide +kernel
  obtain ⟨stamped, preImage, undoImage, seen, logged, read, _, _, same⟩ :=
    (pre_image_is_snapshot_iff bound (by decide) (by decide) store request).2 opened
  have evaluated : (table.get whole store).1.toOption.map (·.cells) =
      some [⟨Sample.column, ⟨3⟩, [3]⟩, ⟨Sample.column, ⟨1⟩, [1]⟩] := by decide +kernel
  have read : (table.get whole store).1 = .ok seen := read
  have cells : seen.cells = [⟨Sample.column, ⟨3⟩, [3]⟩, ⟨Sample.column, ⟨1⟩, [1]⟩] := by
    rw [read] at evaluated
    exact Option.some.inj evaluated
  obtain rfl : preImage = seen := same.2 (by rw [cells]; decide +kernel)
  exact ⟨stamped, preImage, undoImage, logged, read, cells⟩

def PendingLog.preImages (log : PendingLog) : List RowResult :=
  log.filterMap fun
    | .delete _ preImage _ => some preImage
    | _ => none

/-- With room for one version a hidden one leaves nothing of the row in the pre-image, though a read
of the row with the same limit returns the cell below it. -/
theorem pre_image_misses_visible_cell :
    let tx := Transaction.new ⟨1⟩ ⟨4⟩ []
    let store := Sample.store [{ row := "r", version := 1, value := [0x76, 0x31] },
      { row := "r", version := 3, value := [0x76, 0x33] }]
    let table : Table := (({ config := { preImageMaxVersions := 1 } } : Table).bind tx).2
    let whole : Get := { row := Bytes.ofText "r", filter := { maxVersions := 1 } }
    tx.readPointer < tx.writePointer ∧
      (table.get whole store).1.toOption.map (·.cells) =
        some [⟨Sample.column, ⟨1⟩, [0x76, 0x31]⟩] ∧
      (table.delete { row := Bytes.ofText "r" } store).2.1.log.preImages =
        [.empty (Bytes.ofText "r")] := by
  decide +kernel

end SnapshotTable
