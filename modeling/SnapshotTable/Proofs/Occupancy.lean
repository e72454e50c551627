import Mathlib.Data.Set.Card
import SnapshotTable.Proofs.Effect
import SnapshotTable.Proofs.Refinement

/-!
Which rows and columns a memory store keeps. A kept column has a version, and a kept row has a
column unless it is hollow: an append or an increment that names no column opens its row all the
same. A hollow row is counted among the rows although no cell can be read of it, until the next put
or delete in the row.
-/

namespace SnapshotTable

set_option autoImplicit false

namespace SortedMap

variable {α β : Type} {cmp : α → α → Ordering}

theorem isEmpty_of_find? {map : SortedMap α β cmp} {key : α} {value : β}
    (found : map.find? key = some value) : map.isEmpty = false := by
  cases empty : map.isEmpty with
  | false => rfl
  | true =>
    rw [find?_of_isEmpty empty] at found
    cases found

theorem exists_of_not_isEmpty [Std.TransCmp cmp] [Std.LawfulEqCmp cmp] {map : SortedMap α β cmp}
    (full : map.isEmpty = false) : ∃ key value, map.find? key = some value := by
  obtain ⟨entries, ascending⟩ := map
  cases entries with
  | nil => cases full
  | cons head rest => exact ⟨head.1, head.2, (mem_entries_iff ..).1 (List.mem_cons_self ..)⟩

end SortedMap

namespace Columns

def Filled (columns : Columns) : Prop :=
  ∀ column versions, columns.find? column = some versions → versions.isEmpty = false

theorem filled_empty : Filled .empty := nofun

theorem isEmpty_insert (columns : Columns) (column : Column) (version : Version) (value : Bytes) :
    (columns.insert column version value).isEmpty = false := by
  have found : (columns.insert column version value).find? column =
      some (((columns.find? column).getD .empty).insert version value) := by
    rw [insert, SortedMap.find?_alter_eq, if_pos rfl]
  exact SortedMap.isEmpty_of_find? found

theorem Filled.insert {columns : Columns} (filled : columns.Filled) (column : Column)
    (version : Version) (value : Bytes) : (columns.insert column version value).Filled := by
  intro other versions found
  rw [Columns.insert, SortedMap.find?_alter_eq] at found
  by_cases same : other = column
  · rw [if_pos same] at found
    cases found
    apply SortedMap.isEmpty_of_find?
    rw [SortedMap.find?_insert_eq, if_pos rfl]
  · rw [if_neg same] at found
    exact filled other versions found

theorem filled_remove (columns : Columns) (removal : Delete) : (columns.remove removal).Filled := by
  intro column versions found
  rw [remove, SortedMap.find?_filterMap] at found
  obtain ⟨_, _, kept⟩ := Option.bind_eq_some_iff.1 found
  dsimp only at kept
  split at kept
  · cases kept
  · rename_i full
    cases kept
    exact Bool.eq_false_iff.2 full

theorem Filled.isEmpty_iff {columns : Columns} (filled : columns.Filled) :
    columns.isEmpty ↔ ∀ column version, columns.cell? column version = none := by
  constructor
  · intro empty column version
    rw [cell?, SortedMap.find?_of_isEmpty empty]
    rfl
  · intro absent
    cases kept : columns.isEmpty with
    | true => rfl
    | false =>
      obtain ⟨column, versions, here⟩ := SortedMap.exists_of_not_isEmpty kept
      obtain ⟨version, value, stored⟩ :=
        SortedMap.exists_of_not_isEmpty (filled column versions here)
      have missing := absent column version
      rw [cell?, here] at missing
      change versions.find? version = none at missing
      rw [stored] at missing
      cases missing

end Columns

namespace MemoryStore

theorem rows_resolve (store : MemoryStore) (version : Version) (assigned : Option Version) :
    (store.resolve version assigned).2.2.rows = store.rows := by
  simp only [resolve]
  split
  · cases assigned <;> rfl
  · rfl

theorem find?_writeCells {row : Bytes} {columns : Columns} (filled : columns.Filled)
    (cells : List Cell) (assigned : Option Version) {store : MemoryStore}
    (held : store.rows.find? row = some columns) : ∃ kept,
      (writeCells row cells assigned store).rows.find? row = some kept ∧ kept.Filled ∧
        (kept.isEmpty ↔ columns.isEmpty ∧ cells = []) := by
  induction cells generalizing columns assigned store with
  | nil => exact ⟨columns, held, filled, by simp⟩
  | cons cell rest ih =>
    rw [writeCells]
    dsimp only
    have inserted : ((store.resolve cell.version assigned).2.2.insertCell row cell.column
        (store.resolve cell.version assigned).1 cell.value).rows.find? row =
          some (columns.insert cell.column (store.resolve cell.version assigned).1 cell.value) := by
      rw [insertCell, SortedMap.find?_alter_eq, if_pos rfl, rows_resolve, held]
      rfl
    obtain ⟨kept, here, still, empty⟩ := ih (filled.insert _ _ _) _ inserted
    refine ⟨kept, here, still, ?_⟩
    rw [empty, columns.isEmpty_insert]
    simp

theorem find?_writeCells_other {row other : Bytes} (away : other ≠ row) (cells : List Cell)
    (assigned : Option Version) (store : MemoryStore) :
    (writeCells row cells assigned store).rows.find? other = store.rows.find? other := by
  induction cells generalizing assigned store with
  | nil => rfl
  | cons cell rest ih =>
    rw [writeCells]
    dsimp only
    rw [ih, insertCell, SortedMap.find?_alter_eq, if_neg away, rows_resolve]

theorem find?_applyPut (store : MemoryStore) (write : Put)
    (filled : ∀ columns, store.rows.find? write.row = some columns → columns.Filled) : ∃ kept,
      (store.applyPut write).rows.find? write.row = some kept ∧ kept.Filled ∧
        (kept.isEmpty ↔ ((store.rows.find? write.row).getD .empty).isEmpty ∧ write.cells = []) := by
  have before : ((store.rows.find? write.row).getD .empty).Filled := by
    cases held : store.rows.find? write.row with
    | none => exact Columns.filled_empty
    | some columns => exact filled columns held
  refine find?_writeCells before write.cells none ?_
  rw [SortedMap.find?_alter_eq, if_pos rfl]

variable {store : MemoryStore} {row : Bytes}

theorem find?_applyPut_other {write : Put} (away : row ≠ write.row) :
    (store.applyPut write).rows.find? row = store.rows.find? row := by
  rw [applyPut, find?_writeCells_other away, SortedMap.find?_alter_eq, if_neg away]

theorem find?_applyDelete {removal : Delete} {kept : Columns}
    (found : (store.applyDelete removal).rows.find? removal.row = some kept) :
    kept.Filled ∧ kept.isEmpty = false := by
  rw [applyDelete, SortedMap.find?_alter_eq, if_pos rfl] at found
  obtain ⟨columns, _, remains⟩ := Option.bind_eq_some_iff.1 found
  dsimp only at remains
  split at remains
  · cases remains
  · rename_i full
    cases remains
    exact ⟨columns.filled_remove removal, Bool.eq_false_iff.2 full⟩

theorem find?_applyDelete_other {removal : Delete} (away : row ≠ removal.row) :
    (store.applyDelete removal).rows.find? row = store.rows.find? row := by
  rw [applyDelete, SortedMap.find?_alter_eq, if_neg away]

theorem isEmpty_rawRow_iff : (store.rawRow row).isEmpty ↔
    ∀ column version, store.cell? row column version = none := by
  have mem : ∀ cell, cell ∈ (store.rawRow row).cells ↔
      store.cell? row cell.column cell.version = some cell.value := by
    intro cell
    rw [rawRow_flat]
    exact FlatStore.mem_rowCells.trans (by rw [find?_flat]; rfl)
  rw [RowResult.isEmpty, List.isEmpty_iff, List.eq_nil_iff_forall_not_mem]
  constructor
  · intro absent column version
    cases found : store.cell? row column version with
    | none => rfl
    | some value => exact absurd ((mem ⟨column, version, value⟩).2 found) (absent _)
  · intro absent cell listed
    have found := (mem cell).1 listed
    rw [absent] at found
    cases found

theorem isEmpty_rawRow_of_filled
    (filled : ∀ columns, store.rows.find? row = some columns → columns.Filled) :
    (store.rawRow row).isEmpty ↔ ((store.rows.find? row).getD .empty).isEmpty := by
  rw [isEmpty_rawRow_iff]
  cases held : store.rows.find? row with
  | none =>
    refine iff_of_true (fun column version => ?_) rfl
    rw [cell?, held]
    rfl
  | some columns =>
    rw [Option.getD_some, (filled columns held).isEmpty_iff]
    simp only [cell?, held]
    rfl

end MemoryStore

namespace Effect

/-- Whether an effect writes to a row or deletes from it. An update without columns does neither. -/
def settles (effect : Effect) (row : Bytes) : Bool :=
  effect.row == row &&
    match effect with
    | make _ => true
    | update _ values => !(values.getD []).isEmpty

def HasCells : Effect → Prop
  | make mutation => mutation.HasCells
  | update _ _ => True

theorem find?_run_other {effect : Effect} {row : Bytes} (away : row ≠ effect.row)
    (store : MemoryStore) : (effect.run store).rows.find? row = store.rows.find? row := by
  cases effect with
  | make mutation =>
    cases mutation with
    | put write => exact MemoryStore.find?_applyPut_other away
    | delete removal => exact MemoryStore.find?_applyDelete_other away
  | update other values =>
    cases values with
    | none => rfl
    | some values => exact MemoryStore.find?_applyPut_other away

end Effect

/-- An update without columns has opened the row where it had no cell, and since then nothing has
been written to the row or deleted from it. -/
def Hollow (past : List Moment) (row : Bytes) : Prop :=
  ∃ earlier moment later, past = earlier ++ moment :: later ∧
    moment.effect = .update row (some []) ∧ (moment.store.rawRow row).isEmpty ∧
      ∀ next ∈ later, next.effect.settles row = false

theorem not_hollow_nil (row : Bytes) : ¬Hollow [] row := by
  rintro ⟨earlier, moment, later, split, _⟩
  cases earlier <;> cases split

theorem hollow_snoc {past : List Moment} {moment : Moment} {row : Bytes} :
    Hollow (past ++ [moment]) row ↔ (Hollow past row ∧ moment.effect.settles row = false) ∨
      (moment.effect = .update row (some []) ∧ (moment.store.rawRow row).isEmpty) := by
  constructor
  · rintro ⟨earlier, opening, later, split, opens, blank, still⟩
    rcases List.eq_nil_or_concat later with rfl | ⟨init, last, rfl⟩
    · obtain ⟨_, same⟩ := List.append_inj' split rfl
      cases same
      exact .inr ⟨opens, blank⟩
    · rw [List.concat_eq_append, ← List.cons_append, ← List.append_assoc] at split
      obtain ⟨same, last'⟩ := List.append_inj' split rfl
      cases last'
      refine .inl ⟨⟨earlier, opening, init, same, opens, blank, fun next mem => ?_⟩, ?_⟩
      · exact still next (by simp [mem])
      · exact still moment (by simp)
  · rintro (⟨⟨earlier, opening, later, rfl, opens, blank, still⟩, settled⟩ | ⟨opens, blank⟩)
    · refine ⟨earlier, opening, later ++ [moment], by simp, opens, blank, fun next mem => ?_⟩
      rcases List.mem_append.1 mem with mem | mem
      · exact still next mem
      · rw [List.mem_singleton.1 mem]
        exact settled
    · exact ⟨past, moment, [], rfl, opens, blank, nofun⟩

namespace MemoryStore

def KeepsBare (store : MemoryStore) (row : Bytes) : Prop :=
  ∃ columns, store.rows.find? row = some columns ∧ columns.isEmpty

theorem keepsBare_iff {store : MemoryStore} {row : Bytes} {columns : Columns}
    (held : store.rows.find? row = some columns) : store.KeepsBare row ↔ columns.isEmpty := by
  simp [KeepsBare, held]

section Run

variable {store : MemoryStore} {effect : Effect} {row : Bytes}
variable (filled : ∀ row columns, store.rows.find? row = some columns → columns.Filled)
include filled

theorem filled_run :
    ∀ row columns, (effect.run store).rows.find? row = some columns → columns.Filled := by
  intro row columns found
  by_cases here : row = effect.row
  · subst here
    cases effect with
    | make mutation =>
      cases mutation with
      | put write =>
        obtain ⟨kept, held, still, _⟩ := store.find?_applyPut write (filled write.row)
        cases held.symm.trans found
        exact still
      | delete removal => exact (find?_applyDelete found).1
    | update row values =>
      cases values with
      | none => exact filled row columns found
      | some values =>
        obtain ⟨kept, held, still, _⟩ :=
          store.tick.2.find?_applyPut (.atVersion row store.tick.1 values) (filled row)
        cases held.symm.trans found
        exact still
  · rw [Effect.find?_run_other here] at found
    exact filled row columns found

theorem not_keepsBare_run (full : effect.HasCells) (settles : effect.settles row) :
    ¬(effect.run store).KeepsBare row := by
  obtain ⟨here, _⟩ := Bool.and_eq_true_iff.1 settles
  cases eq_of_beq here
  rintro ⟨columns, found, empty⟩
  cases effect with
  | make mutation =>
    cases mutation with
    | put write =>
      obtain ⟨kept, held, _, bare⟩ := store.find?_applyPut write (filled write.row)
      cases held.symm.trans found
      exact full (bare.1 empty).2
    | delete removal =>
      rw [(find?_applyDelete found).2] at empty
      cases empty
  | update row values =>
    cases values with
    | none => simp [Effect.settles] at settles
    | some values =>
      obtain ⟨kept, held, _, bare⟩ :=
        store.tick.2.find?_applyPut (.atVersion row store.tick.1 values) (filled row)
      cases held.symm.trans found
      have nothing : values = [] := List.map_eq_nil_iff.1 (bare.1 empty).2
      simp [Effect.settles, nothing] at settles

theorem keepsBare_run_iff (idle : effect.settles row = false) :
    (effect.run store).KeepsBare row ↔
      store.KeepsBare row ∨ effect = .update row (some []) ∧ (store.rawRow row).isEmpty := by
  by_cases here : row = effect.row
  · subst here
    cases effect with
    | make mutation => simp [Effect.settles] at idle
    | update row values =>
      cases values with
      | none => simp [KeepsBare, Effect.run, Effect.row, tick]
      | some values =>
        cases values with
        | nil =>
          obtain ⟨kept, held, _, bare⟩ :=
            store.tick.2.find?_applyPut (.atVersion row store.tick.1 []) (filled row)
          have blank := isEmpty_rawRow_of_filled (filled row)
          refine (keepsBare_iff held).trans (bare.trans ?_)
          change ((store.rows.find? row).getD .empty).isEmpty ∧ ([] : List Cell) = [] ↔ _
          simp only [Effect.row, blank, and_true, true_and]
          refine ⟨.inr, ?_⟩
          rintro (⟨columns, found, empty⟩ | shown)
          · rw [found]
            exact empty
          · exact shown
        | cons first rest => simp [Effect.settles, Effect.row] at idle
  · have opens : effect ≠ .update row (some []) := fun same => here (same ▸ rfl)
    rw [KeepsBare, Effect.find?_run_other here]
    simp [KeepsBare, opens]

end Run

end MemoryStore

/-- Kept columns have a version, and only hollow rows are kept without a column. -/
structure Tidy (past : List Moment) (store : MemoryStore) : Prop where
  filled : ∀ row columns, store.rows.find? row = some columns → columns.Filled
  bare : ∀ row, store.KeepsBare row ↔ Hollow past row

namespace Tidy

variable {past : List Moment} {store other : MemoryStore} {moment : Moment}

theorem alike (same : store.Alike other) (tidy : Tidy past store) : Tidy past other := by
  obtain ⟨filled, bare⟩ := tidy
  simp only [MemoryStore.KeepsBare, same.rows] at filled bare
  exact ⟨filled, bare⟩

theorem step (full : moment.effect.HasCells) (tidy : Tidy past moment.store) :
    Tidy (past ++ [moment]) moment.after := by
  refine ⟨MemoryStore.filled_run tidy.filled, fun row => ?_⟩
  rw [hollow_snoc]
  cases settles : moment.effect.settles row with
  | true =>
    refine iff_of_false (MemoryStore.not_keepsBare_run tidy.filled full settles) ?_
    rintro (⟨_, idle⟩ | ⟨opens, _⟩)
    · cases idle
    · rw [opens] at settles
      simp [Effect.settles] at settles
  | false =>
    rw [← tidy.bare, eq_self, and_true]
    exact MemoryStore.keepsBare_run_iff tidy.filled settles

end Tidy

namespace MemoryStore

variable {store : MemoryStore}

theorem hasCells_accept (waiting : ∀ other ∈ store.buffer, other.HasCells) {mutation : Mutation}
    (full : mutation.HasCells) : ∀ other ∈ (store.accept mutation).buffer, other.HasCells := by
  intro other mem
  rcases store.accept_cases mutation with ⟨_, same⟩ | ⟨_, same | same⟩ <;> rw [same] at mem
  · rw [buffer_apply] at mem
    exact waiting other mem
  · rcases List.mem_append.1 mem with mem | mem
    · exact waiting other mem
    · exact List.mem_singleton.1 mem ▸ full
  · rw [buffer_flushBuffer] at mem
    cases mem

theorem buffer_applyIf (store : MemoryStore) (condition : Condition) (mutation : Mutation) :
    (store.applyIf condition mutation).2.buffer = store.buffer := by
  rw [applyIf]
  split
  · exact store.buffer_apply mutation
  · rfl

theorem buffer_updateColumns {α : Type} (store : MemoryStore) (row : Bytes)
    (columns : List (Column × α)) (derive : Option Bytes → α → Except StoreError Bytes) :
    (store.updateColumns row columns derive).2.buffer = store.buffer := by
  obtain ⟨rows, clock, same⟩ :=
    Effect.run_frame (.update row (store.derived row columns derive).toOption) store
  rw [updateColumns_eq, same]

theorem hasCells_perform (waiting : ∀ other ∈ store.buffer, other.HasCells) (call : StoreCall) :
    ∀ other ∈ (store.perform call).2.buffer, other.HasCells := by
  cases closed : store.closed with
  | true =>
    rw [perform_of_closed closed]
    exact waiting
  | false =>
    simp only [perform, closed, Bool.false_eq_true, if_false]
    cases call with
    | get request => exact waiting
    | scan request => exact waiting
    | put request =>
      simp only [performOpen]
      split
      · exact waiting
      · rename_i full
        exact hasCells_accept waiting (hasCells_of_not_isEmpty full)
    | delete request => exact hasCells_accept waiting trivial
    | checkAndPut condition request =>
      simp only [performOpen]
      split
      · exact waiting
      · split
        · exact waiting
        · exact (store.buffer_applyIf condition _).symm ▸ waiting
    | checkAndDelete condition request =>
      simp only [performOpen]
      split
      · exact waiting
      · exact (store.buffer_applyIf condition _).symm ▸ waiting
    | append request => exact (store.buffer_updateColumns ..).symm ▸ waiting
    | increment request => exact (store.buffer_updateColumns ..).symm ▸ waiting
    | flush => exact store.buffer_flushBuffer.symm ▸ List.forall_mem_nil _
    | close => exact store.buffer_flushBuffer.symm ▸ List.forall_mem_nil _

theorem hasCells_effects (waiting : ∀ other ∈ store.buffer, other.HasCells) (call : StoreCall) :
    ∀ effect ∈ store.effects call, effect.HasCells := by
  intro effect mem
  obtain ⟨_, done⟩ := effects_cases mem
  rcases done with ⟨made, rfl, waited | full⟩ | ⟨request, _, rfl⟩ | ⟨request, _, rfl⟩
  · exact waiting made waited
  · exact full
  · trivial
  · trivial

theorem hasCells_history (waiting : ∀ other ∈ store.buffer, other.HasCells)
    (calls : List StoreCall) : ∀ moment ∈ store.history calls, moment.effect.HasCells := by
  induction calls generalizing store with
  | nil => simp [history]
  | cons call rest ih =>
    intro moment mem
    rcases List.mem_append.1 mem with here | later
    · exact hasCells_effects waiting call _ (effect_of_mem_moments moment here)
    · exact ih (hasCells_perform waiting call) moment later

end MemoryStore

theorem Tidy.blank_of_hollow {past : List Moment} {store : MemoryStore} (tidy : Tidy past store)
    {row : Bytes} (hollow : Hollow past row) : (store.rawRow row).isEmpty := by
  obtain ⟨columns, held, empty⟩ := (tidy.bare row).2 hollow
  rw [MemoryStore.isEmpty_rawRow_of_filled (tidy.filled row), held]
  exact empty

theorem Tidy.kept_iff {past : List Moment} {store : MemoryStore} (tidy : Tidy past store)
    {row : Bytes} : (∃ columns, store.rows.find? row = some columns) ↔
      (store.rawRow row).isEmpty = false ∨ Hollow past row := by
  have blank := MemoryStore.isEmpty_rawRow_of_filled (tidy.filled row)
  rw [← tidy.bare]
  cases held : store.rows.find? row with
  | none =>
    rw [held] at blank
    simp [MemoryStore.KeepsBare, held, blank.2 rfl]
  | some columns =>
    rw [held, Option.getD_some] at blank
    rw [MemoryStore.keepsBare_iff held, ← blank]
    cases (store.rawRow row).isEmpty <;> simp

theorem Tidy.history (name : String) (config : StoreConfig) (calls : List StoreCall) :
    Tidy (({ name := name, config := config } : MemoryStore).history calls)
      (({ name := name, config := config } : MemoryStore).performAll calls) := by
  have started : Tidy [] { name := name, config := config } :=
    ⟨nofun, fun row => iff_of_false nofun (not_hollow_nil row)⟩
  have waiting : ∀ other ∈ ({ name := name, config := config } : MemoryStore).buffer,
      other.HasCells := nofun
  have full := MemoryStore.hasCells_history waiting calls
  exact (Leads.of_history _ calls).induct Tidy Tidy.alike Tidy.step full started

namespace MemoryStore

theorem keptRows_eq (store : MemoryStore) :
    {row | ∃ columns, store.rows.find? row = some columns} =
      (store.rows.keys.toFinset : Set Bytes) := by
  ext row
  simp [SortedMap.mem_keys_iff]

theorem rowCount_eq_ncard (store : MemoryStore) :
    store.rowCount = {row | ∃ columns, store.rows.find? row = some columns}.ncard := by
  rw [keptRows_eq, Set.ncard_coe_finset, List.toFinset_card_of_nodup store.rows.nodup_keys]
  simp [rowCount, SortedMap.size, SortedMap.keys]

/-- Take any run of calls on a new store. All columns it keeps have a version, and the rows it keeps
without a column are exactly the hollow ones. So it counts the rows of which cells can be read and
the hollow ones, and the count is that of the rows with cells exactly if no row is hollow. -/
theorem rowCount_counts_hollow_rows (name : String) (config : StoreConfig)
    (calls : List StoreCall) :
    let store := ({ name := name, config := config } : MemoryStore).performAll calls
    let history := ({ name := name, config := config } : MemoryStore).history calls
    let occupied := {row | (store.rawRow row).isEmpty = false}
    (∀ row columns, store.rows.find? row = some columns →
      ∀ column versions, columns.find? column = some versions → versions.isEmpty = false) ∧
    (∀ row, (∃ columns, store.rows.find? row = some columns ∧ columns.isEmpty) ↔
      Hollow history row) ∧
    store.rowCount = occupied.ncard + {row | Hollow history row}.ncard ∧
    (store.rowCount = occupied.ncard ↔ ∀ row, ¬Hollow history row) := by
  intro store history occupied
  have tidy : Tidy history store := .history name config calls
  have kept : {row | ∃ columns, store.rows.find? row = some columns} =
      occupied ∪ {row | Hollow history row} := Set.ext fun row => tidy.kept_iff
  have apart : Disjoint occupied {row | Hollow history row} := by
    refine Set.disjoint_left.2 fun row shown hollow => ?_
    rw [Set.mem_ofPred_eq, tidy.blank_of_hollow hollow] at shown
    cases shown
  have finite : (occupied ∪ {row | Hollow history row}).Finite := by
    rw [← kept, keptRows_eq]
    exact Finset.finite_toSet _
  obtain ⟨finite_occupied, finite_hollow⟩ := Set.finite_union.1 finite
  have counted : store.rowCount = occupied.ncard + {row | Hollow history row}.ncard := by
    rw [rowCount_eq_ncard, kept, Set.ncard_union_eq apart finite_occupied finite_hollow]
  refine ⟨tidy.filled, tidy.bare, counted, ?_⟩
  rw [counted, Nat.add_eq_left, Set.ncard_eq_zero finite_hollow, Set.eq_empty_iff_forall_notMem]
  rfl

/-- An append without columns opens a row. It is counted, and no row shows a cell. -/
theorem append_without_columns_opens_row :
    let row := Bytes.ofText "r"
    let store := ({} : MemoryStore).performAll [.append { row := row }]
    store.rows.find? row = some .empty ∧ store.rowCount = 1 ∧
      {other | (store.rawRow other).isEmpty = false} = ∅ := by
  intro row store
  refine ⟨by decide +kernel, by decide +kernel, ?_⟩
  refine Set.eq_empty_iff_forall_notMem.2 fun other shown => ?_
  have blank : (store.rawRow other).isEmpty := by
    rw [isEmpty_rawRow_iff]
    intro column version
    exact congrFun (contents_withRow ({} : MemoryStore).tick.2 row) ⟨other, column, version⟩
  rw [Set.mem_ofPred_eq, blank] at shown
  cases shown

end MemoryStore

/-- An append or an increment of the row that names no column. -/
def StoreCall.OpensBare (call : StoreCall) (row : Bytes) : Prop :=
  match call with
  | append request => request.row = row ∧ request.columns = []
  | increment request => request.row = row ∧ request.columns = []
  | _ => False

namespace MemoryStore

theorem toOption_derived {α : Type} {store : MemoryStore} {row : Bytes}
    {columns : List (Column × α)} {derive : Option Bytes → α → Except StoreError Bytes} :
    (store.derived row columns derive).toOption = some [] ↔ columns = [] := by
  cases columns with
  | nil => exact iff_of_true rfl rfl
  | cons entry rest =>
    obtain ⟨column, change⟩ := entry
    rw [derived_cons]
    cases derive (store.newest? row column) change with
    | error error => exact iff_of_false nofun nofun
    | ok value => cases store.derived row rest derive <;> exact iff_of_false nofun nofun

theorem mem_effects_iff {store : MemoryStore} {call : StoreCall} {row : Bytes} :
    .update row (some []) ∈ store.effects call ↔ store.closed = false ∧ call.OpensBare row := by
  constructor
  · intro mem
    obtain ⟨opened, done⟩ := effects_cases mem
    refine ⟨opened, ?_⟩
    rcases done with ⟨made, same, _⟩ | ⟨request, rfl, same⟩ | ⟨request, rfl, same⟩
    · cases same
    · obtain ⟨here, derived⟩ := Effect.update.inj same
      exact ⟨here.symm, toOption_derived.1 derived.symm⟩
    · obtain ⟨here, derived⟩ := Effect.update.inj same
      exact ⟨here.symm, toOption_derived.1 derived.symm⟩
  · rintro ⟨opened, bare⟩
    cases call with
    | append request =>
      obtain ⟨rfl, none⟩ := bare
      simp [effects, opened, toOption_derived.2 none]
    | increment request =>
      obtain ⟨rfl, none⟩ := bare
      simp [effects, opened, toOption_derived.2 none]
    | _ => cases bare

theorem mem_effects_of_mem_history {store : MemoryStore} {calls : List StoreCall} :
    ∀ moment ∈ store.history calls, ∃ met : MemoryStore, ∃ call ∈ calls,
      moment.effect ∈ met.effects call := by
  induction calls generalizing store with
  | nil => simp [history]
  | cons call rest ih =>
    intro moment mem
    rcases List.mem_append.1 mem with here | later
    · exact ⟨store, call, List.mem_cons_self .., effect_of_mem_moments moment here⟩
    · obtain ⟨met, other, listed, effect⟩ := ih moment later
      exact ⟨met, other, List.mem_cons_of_mem _ listed, effect⟩

/-- Where every append and every increment names a column, no row is hollow, so every kept row has
a column. -/
theorem not_hollow_of_columns_named {store : MemoryStore} {calls : List StoreCall} {row : Bytes}
    (named : ∀ call ∈ calls, ¬call.OpensBare row) : ¬Hollow (store.history calls) row := by
  rintro ⟨earlier, moment, later, split, opens, _⟩
  have mem : moment ∈ store.history calls := by simp [split]
  obtain ⟨met, call, listed, effect⟩ := mem_effects_of_mem_history moment mem
  rw [opens] at effect
  exact named call listed (mem_effects_iff.1 effect).2

end MemoryStore

end SnapshotTable
