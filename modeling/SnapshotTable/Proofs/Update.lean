import Mathlib.Algebra.Ring.Int.Defs
import SnapshotTable.Proofs.Capture
import SnapshotTable.Proofs.Clock
import SnapshotTable.Proofs.Counting

/-!
Appends and increments, and which of their changes last. The values of an update are all derived
from what stood before it, and are all written at one version. So of several changes that a request
lists for one column only the last one stays, while the reply shows the first. Where a cell stands
above the version of the update, which needs a clock that has come to its end, nothing stays.
-/

namespace SnapshotTable

set_option autoImplicit false

/-- What a list of columns says about one of them, in order. -/
def listedFor {α : Type} (column : Column) (columns : List (Column × α)) : List α :=
  (columns.filter (·.1 == column)).map (·.2)

section Listed

variable {α : Type} {column other : Column} {columns more : List (Column × α)}

theorem listedFor_cons_self (change : α) (rest : List (Column × α)) :
    listedFor column ((column, change) :: rest) = change :: listedFor column rest := by
  simp [listedFor]

theorem listedFor_cons_other (away : other ≠ column) (change : α) (rest : List (Column × α)) :
    listedFor column ((other, change) :: rest) = listedFor column rest := by
  simp [listedFor, away]

theorem listedFor_append :
    listedFor column (columns ++ more) = listedFor column columns ++ listedFor column more := by
  simp [listedFor]

theorem not_mem_of_listedFor (none : listedFor column columns = []) :
    ∀ entry ∈ columns, entry.1 ≠ column := by
  intro entry mem same
  have listed : entry ∈ columns.filter (·.1 == column) := List.mem_filter.2 ⟨mem, by simp [same]⟩
  rw [List.map_eq_nil_iff.1 none] at listed
  cases listed

end Listed

theorem getLast?_of_forall₂ {α β : Type} {related : α → β → Prop} {inputs : List α}
    {outputs : List β} (all : List.Forall₂ related inputs outputs) (some : inputs ≠ []) :
    ∃ input output, inputs.getLast? = .some input ∧ outputs.getLast? = .some output ∧
      related input output := by
  induction all with
  | nil => exact absurd rfl some
  | @cons input output _ _ here rest ih =>
    cases rest with
    | nil => exact ⟨input, output, rfl, rfl, here⟩
    | cons next later =>
      obtain ⟨lastInput, lastOutput, first, second, last⟩ := ih (List.cons_ne_nil _ _)
      exact ⟨lastInput, lastOutput, by rw [List.getLast?_cons_cons, first],
        by rw [List.getLast?_cons_cons, second], last⟩

theorem Put.tops_atVersion {row : Bytes} {version : Version} {column : Column} {value : Bytes}
    {values : List (Column × Bytes)} (last : (listedFor column values).getLast? = some value) :
    (⟨column, version, value⟩ : Cell).Tops (Put.atVersion row version values).cells := by
  induction values using List.reverseRecOn with
  | nil => cases last
  | append_singleton rest entry ih =>
    obtain ⟨other, written⟩ := entry
    have cells : (Put.atVersion row version (rest ++ [(other, written)])).cells =
        (Put.atVersion row version rest).cells ++ [⟨other, version, written⟩] := by
      simp [Put.atVersion]
    rw [listedFor_append] at last
    rw [cells]
    by_cases same : other = column
    · subst same
      rw [listedFor_cons_self, List.getLast?_append] at last
      obtain rfl : written = value := by simpa [listedFor] using last
      refine ⟨_, [], rfl, fun earlier mem _ => ?_, List.forall_mem_nil _⟩
      rw [Put.version_atVersion mem]
      exact Version.le_refl _
    · rw [listedFor_cons_other same] at last
      obtain ⟨before, after, split, earlier, later⟩ := ih (by simpa [listedFor] using last)
      refine ⟨before, after ++ [⟨other, version, written⟩], by simp [split], earlier, ?_⟩
      intro cell mem here
      rcases List.mem_append.1 mem with mem | mem
      · exact later cell mem here
      · rw [List.mem_singleton.1 mem] at here
        exact absurd here same

theorem RowResult.value?_ofCells_atVersion (row : Bytes) (version : Version)
    (values : List (Column × Bytes)) (column : Column) :
    (RowResult.ofCells row (Put.atVersion row version values).cells).value? column =
      (listedFor column values).head? := by
  have tied : ∀ cell ∈ (Put.atVersion row version values).cells, cell.column == column →
      ∀ other ∈ (Put.atVersion row version values).cells, other.column == column →
        (Cell.order cell other).isLE := by
    intro cell mem here other mem' there
    have columns : cell.column = other.column :=
      (beq_iff_eq.1 here).trans (beq_iff_eq.1 there).symm
    have versions : cell.version = other.version :=
      (Put.version_atVersion mem).trans (Put.version_atVersion mem').symm
    simp [Cell.order, compareLex, compareOn, columns, versions, Std.ReflCmp.compare_self]
  have sorted := Cell.filter_sort tied
  simp only [RowResult.value?, RowResult.newest?, RowResult.ofCells]
  rw [← List.head?_filter, sorted, listedFor]
  simp [Put.atVersion, List.filter_map, Function.comp_def]

namespace MemoryStore

/-- The version at which an update writes. One that takes the greatest version is given zero. -/
def updateVersion (store : MemoryStore) : Version :=
  if store.tick.1.isLatest then .zero else store.tick.1

theorem cellsAt_update (store : MemoryStore) (row : Bytes) (values : List (Column × Bytes)) :
    (Put.atVersion row store.tick.1 values).cellsAt store.tick.2.clock =
      (Put.atVersion row store.updateVersion values).cells := by
  have written : ∀ cell ∈ (Put.atVersion row store.tick.1 values).cellsAt store.tick.2.clock,
      cell.version = store.updateVersion := by
    intro cell mem
    cases asks : store.tick.1.isLatest with
    | true =>
      have again : (⟨store, .update row (some values)⟩ : Moment).asksAgain := asks
      rw [updateVersion, if_pos asks]
      exact Moment.version_of_asksAgain again cell mem
    | false =>
      rw [updateVersion, asks]
      exact (Moment.cellsAt_atVersion _ asks).1 cell mem
  simp only [Put.cellsAt, Put.atVersion, List.map_map] at written ⊢
  refine List.map_congr_left fun entry mem => ?_
  have version := written _ (List.mem_map.2 ⟨entry, mem, rfl⟩)
  simp only [Function.comp_apply, Cell.placed] at version ⊢
  split at version <;> simp_all

/-- A stored version of the column stands above the one at which an update writes. -/
def Outruns (store : MemoryStore) (row : Bytes) (column : Column) : Prop :=
  ∃ version ∈ store.versionsOf row column, store.updateVersion < version

instance (store : MemoryStore) (row : Bytes) (column : Column) :
    Decidable (store.Outruns row column) :=
  inferInstanceAs (Decidable (∃ version ∈ store.versionsOf row column,
    store.updateVersion < version))

section Updated

variable {store : MemoryStore} {row : Bytes} {column : Column} {values : List (Column × Bytes)}

/-- The store after an update has written the values that it has derived. -/
def updated (store : MemoryStore) (row : Bytes) (values : List (Column × Bytes)) : MemoryStore :=
  store.tick.2.applyPut (.atVersion row store.tick.1 values)

theorem contents_updated_cases (store : MemoryStore) (row : Bytes)
    (values : List (Column × Bytes)) (place : Place) :
    (place.row = row ∧ place.version = store.updateVersion ∧
        ∃ value, (place.column, value) ∈ values) ∨
      (store.updated row values).contents place = store.contents place := by
  rw [updated, contents_applyPut, cellsAt_update, ← store.find?_flat]
  rcases FlatStore.find?_write row (Put.atVersion row store.updateVersion values).cells
    store.flat.cells place with ⟨cell, mem, rfl⟩ | same
  · obtain ⟨entry, listed, rfl⟩ := List.mem_map.1 mem
    exact .inl ⟨rfl, rfl, entry.2, listed⟩
  · exact .inr same

theorem shown_updated_of_unnamed {other : Bytes}
    (unnamed : other = row → listedFor column values = []) :
    (store.updated row values).shown other column = store.shown other column := by
  refine shown_of_newest ((store.newest_shown other column).congr fun version => ?_)
  rcases store.contents_updated_cases row values ⟨other, column, version⟩ with
    ⟨here, _, value, mem⟩ | same
  · exact absurd rfl (not_mem_of_listedFor (unnamed here) _ mem)
  · exact same

theorem shown_updated_of_outruns (outruns : store.Outruns row column) :
    (store.updated row values).shown row column = store.shown row column := by
  obtain ⟨later, held, above⟩ := outruns
  rw [mem_versionsOf_iff] at held
  have newest := store.newest_shown row column
  have kept : ∀ version, version ≠ store.updateVersion →
      (store.updated row values).contents ⟨row, column, version⟩ =
        store.contents ⟨row, column, version⟩ := by
    intro version other
    rcases store.contents_updated_cases row values ⟨row, column, version⟩ with
      ⟨_, same, _⟩ | same
    · exact absurd same other
    · exact same
  cases shown : store.shown row column with
  | none =>
    rw [shown] at newest
    rw [newest later] at held
    cases held
  | some value =>
    rw [shown] at newest
    obtain ⟨version, here, nothing⟩ := newest
    have reaches : ¬version < later := fun below => by
      rw [nothing later below] at held
      cases held
    rw [Version.lt_iff] at reaches above
    refine shown_of_newest ⟨version, ?_, fun newer lt => ?_⟩
    · rw [kept version fun same => ?_, here]
      rw [same] at reaches
      omega
    · rw [kept newer fun same => ?_, nothing newer lt]
      rw [Version.lt_iff, same] at lt
      omega

theorem shown_updated_of_named {value : Bytes}
    (last : (listedFor column values).getLast? = some value) (ahead : ¬store.Outruns row column) :
    (store.updated row values).shown row column = some value := by
  have tops : (⟨column, store.updateVersion, value⟩ : Cell).Tops
      ((Put.atVersion row store.tick.1 values).cellsAt store.tick.2.clock) := by
    rw [cellsAt_update]
    exact Put.tops_atVersion last
  have above : ∀ version, store.tick.2.contents ⟨row, column, version⟩ ≠ none →
      version.toNat ≤ store.updateVersion.toNat := by
    intro version held
    have listed := (store.mem_versionsOf_iff row column version).2 (Option.isSome_iff_ne_none.2 held)
    have below : ¬store.updateVersion < version := fun lt => ahead ⟨version, listed, lt⟩
    rw [Version.lt_iff] at below
    omega
  exact shown_of_newest (newest_applyPut tops above)

end Updated

section Derived

variable {α : Type} {store next : MemoryStore} {row : Bytes} {columns : List (Column × α)}
  {derive : Option Bytes → α → Except StoreError Bytes} {values : List (Column × Bytes)}
  {reply : RowResult}

theorem forall₂_derived (done : store.derived row columns derive = .ok values) (column : Column) :
    List.Forall₂ (fun change value => derive (store.shown row column) change = .ok value)
      (listedFor column columns) (listedFor column values) := by
  induction columns generalizing values with
  | nil =>
    cases done
    exact .nil
  | cons entry rest ih =>
    obtain ⟨other, change⟩ := entry
    rw [derived_cons] at done
    cases made : derive (store.newest? row other) change with
    | error error =>
      rw [made] at done
      cases done
    | ok value =>
      cases later : store.derived row rest derive with
      | error error =>
        rw [made, later] at done
        cases done
      | ok others =>
        rw [made, later] at done
        cases done
        by_cases same : other = column
        · subst same
          rw [← shown_eq_newest?] at made
          rw [listedFor_cons_self, listedFor_cons_self]
          exact .cons made (ih later)
        · rw [listedFor_cons_other same, listedFor_cons_other same]
          exact ih later

theorem updateColumns_ok (done : store.updateColumns row columns derive = (.ok reply, next)) :
    ∃ values, store.derived row columns derive = .ok values ∧
      reply = .ofCells row (Put.atVersion row store.tick.1 values).cells ∧
        next = store.updated row values := by
  cases made : store.derived row columns derive with
  | error error =>
    rw [updateColumns_of_error made] at done
    cases done
  | ok values =>
    rw [updateColumns_of_ok made] at done
    cases done
    exact ⟨values, rfl, rfl, rfl⟩

end Derived

end MemoryStore

/-- A way of taking changes into a value, one after the other. -/
structure Accumulation (α : Type) where
  derive : Option Bytes → α → Except StoreError Bytes
  /-- The value is the old one with exactly these changes. -/
  Sums : Option Bytes → List α → Option Bytes → Prop
  /-- The changes come to nothing. -/
  Void : List α → Prop
  sums_one {old : Option Bytes} {change : α} {value : Bytes} :
    derive old change = .ok value → Sums old [change] (some value)
  sums_none {old : Bytes} {change : α} {value : Bytes} :
    derive (some old) change = .ok value → Sums (some old) [] (some old)
  sums_around_iff {old value? : Option Bytes} {part : List α} (before after : List α) :
    Sums old part value? → (Sums old (before ++ part ++ after) value? ↔ Void (before ++ after))

namespace Accumulation

def appending : Accumulation Bytes where
  derive := MemoryStore.appended
  Sums old suffixes value? := value? = some (old.getD [] ++ suffixes.flatten)
  Void suffixes := suffixes.flatten = []
  sums_one := by
    rintro old suffix value ⟨⟩
    simp
  sums_none _ := by simp
  sums_around_iff := by
    rintro old value? part before after rfl
    simp only [List.flatten_append, Option.some.injEq, List.append_cancel_left_eq,
      List.append_eq_nil_iff]
    constructor
    · intro same
      have lengths := congrArg List.length same
      simp only [List.length_append] at lengths
      exact ⟨List.eq_nil_of_length_eq_zero (by omega), List.eq_nil_of_length_eq_zero (by omega)⟩
    · rintro ⟨first, last⟩
      simp [first, last]

def counting : Accumulation Int64 where
  derive := MemoryStore.incremented
  Sums old amounts value? := ∃ count sum : Int64, Counter.standing old = .ok count ∧
    value? = some (Counter.encode sum) ∧ sum.toInt = count.toInt + (amounts.map (·.toInt)).sum
  Void amounts := (amounts.map (·.toInt)).sum = 0
  sums_one := by
    intro old amount value done
    obtain ⟨count, sum, counted, exact_sum, rfl⟩ := MemoryStore.incremented_eq_ok_iff.1 done
    exact ⟨count, sum, counted, rfl, by simpa using exact_sum⟩
  sums_none := by
    intro old amount value done
    obtain ⟨count, _, counted, _, _⟩ := MemoryStore.incremented_eq_ok_iff.1 done
    have same : Counter.encode count = old := Counter.encode_of_decode counted
    exact ⟨count, count, counted, by rw [same], by simp⟩
  sums_around_iff := by
    rintro old value? part before after ⟨count, sum, counted, rfl, exact_sum⟩
    simp only [List.map_append, List.sum_append]
    constructor
    · rintro ⟨other, total, also, same, all⟩
      obtain rfl : count = other := Except.ok.inj (counted.symm.trans also)
      have equal : sum = total := by
        have decoded := Counter.decode_encode sum
        rw [Option.some.inj same, Counter.decode_encode] at decoded
        exact (Except.ok.inj decoded).symm
      rw [← equal] at all
      omega
    · intro nothing
      exact ⟨count, sum, counted, rfl, by omega⟩

end Accumulation

namespace MemoryStore

section Lasting

variable {α : Type} {store : MemoryStore} {row : Bytes} {column : Column}

/-- The listed changes that an update leaves in force. -/
def lasting (store : MemoryStore) (row : Bytes) (column : Column) (changes : List α) : List α :=
  if store.Outruns row column then [] else changes.getLast?.toList

/-- The listed changes that an update loses. -/
def wasted (store : MemoryStore) (row : Bytes) (column : Column) (changes : List α) : List α :=
  if store.Outruns row column then changes else changes.dropLast

theorem wasted_append_lasting (changes : List α) :
    store.wasted row column changes ++ store.lasting row column changes = changes := by
  rw [wasted, lasting]
  split
  · exact List.append_nil _
  · rcases List.eq_nil_or_concat changes with rfl | ⟨before, last, rfl⟩ <;> simp

theorem shown_of_outruns (outruns : store.Outruns row column) :
    ∃ value, store.shown row column = some value := by
  obtain ⟨version, held, _⟩ := outruns
  rw [mem_versionsOf_iff] at held
  have newest := store.newest_shown row column
  cases shown : store.shown row column with
  | some value => exact ⟨value, rfl⟩
  | none =>
    rw [shown] at newest
    rw [newest version] at held
    cases held

end Lasting

theorem closed_updated (store : MemoryStore) (row : Bytes) (values : List (Column × Bytes)) :
    (store.updated row values).closed = store.closed := by
  obtain ⟨rows, clock, same⟩ := Effect.run_frame (.update row (some values)) store
  have updated : store.updated row values = { store with rows := rows, clock := clock } := same
  rw [updated]

end MemoryStore

/-- What an update leaves of a store. A named column shows its old value with the changes in force,
which are all that were listed exactly if the lost ones come to nothing. The reply shows the old
value with the first change of the column, which are all exactly if the others come to nothing.
Every other column shows what it showed. -/
structure Updated {α : Type} (way : Accumulation α) (store next : MemoryStore) (row : Bytes)
    (columns : List (Column × α)) (reply : RowResult) : Prop where
  answers : ∀ other, next.perform (.get { row := other }) =
    (.ok (next.get { row := other }), next)
  shows : ∀ column, listedFor column columns ≠ [] →
    way.Sums (store.shown row column) (store.lasting row column (listedFor column columns))
      (next.shown row column)
  shows_all_iff : ∀ column, listedFor column columns ≠ [] →
    (way.Sums (store.shown row column) (listedFor column columns) (next.shown row column) ↔
      way.Void (store.wasted row column (listedFor column columns)))
  replies : ∀ column, listedFor column columns ≠ [] →
    way.Sums (store.shown row column) ((listedFor column columns).take 1) (reply.value? column)
  replies_all_iff : ∀ column, listedFor column columns ≠ [] →
    (way.Sums (store.shown row column) (listedFor column columns) (reply.value? column) ↔
      way.Void ((listedFor column columns).drop 1))
  spares : ∀ other column, (other = row → listedFor column columns = []) →
    next.shown other column = store.shown other column

namespace Updated

variable {α : Type} {way : Accumulation α} {store : MemoryStore} {row : Bytes}
  {columns : List (Column × α)} {values : List (Column × Bytes)}

theorem of_derived (opened : store.closed = false)
    (done : store.derived row columns way.derive = .ok values) :
    Updated way store (store.updated row values) row columns
      (.ofCells row (Put.atVersion row store.tick.1 values).cells) := by
  have made := MemoryStore.forall₂_derived done
  have shows : ∀ column, listedFor column columns ≠ [] →
      way.Sums (store.shown row column) (store.lasting row column (listedFor column columns))
        ((store.updated row values).shown row column) := by
    intro column named
    obtain ⟨change, value, listed, last, derived⟩ :=
      getLast?_of_forall₂ (made column) named
    rw [MemoryStore.lasting]
    split
    · rename_i outruns
      obtain ⟨old, shown⟩ := MemoryStore.shown_of_outruns outruns
      rw [MemoryStore.shown_updated_of_outruns outruns, shown]
      rw [shown] at derived
      exact way.sums_none derived
    · rename_i ahead
      rw [MemoryStore.shown_updated_of_named last ahead, listed]
      exact way.sums_one derived
  have replies : ∀ column, listedFor column columns ≠ [] →
      way.Sums (store.shown row column) ((listedFor column columns).take 1)
        ((RowResult.ofCells row (Put.atVersion row store.tick.1 values).cells).value? column) := by
    intro column named
    have made := made column
    rw [RowResult.value?_ofCells_atVersion]
    cases changes : listedFor column columns with
    | nil => exact absurd changes named
    | cons change rest =>
      rw [changes] at made
      obtain ⟨value, others, derived, _, listed⟩ := List.forall₂_cons_left_iff.1 made
      rw [listed]
      exact way.sums_one derived
  refine ⟨fun other => ?_, shows, fun column named => ?_, replies, fun column named => ?_,
    fun other column unnamed => ?_⟩
  · exact MemoryStore.perform_get_of_open ((store.closed_updated row values).trans opened) _
  · have all := way.sums_around_iff (store.wasted row column (listedFor column columns)) []
      (shows column named)
    rwa [List.append_nil, List.append_nil, MemoryStore.wasted_append_lasting] at all
  · have all := way.sums_around_iff [] ((listedFor column columns).drop 1) (replies column named)
    rwa [List.nil_append, List.nil_append, List.take_append_drop] at all
  · refine MemoryStore.shown_updated_of_unnamed fun here => ?_
    have made := made column
    rw [unnamed here] at made
    exact List.forall₂_nil_left_iff.1 made

theorem of_ok {next : MemoryStore} {reply : RowResult}
    (done : (if store.closed then (.error .closed, store)
      else store.updateColumns row columns way.derive) = (.ok reply, next)) :
    Updated way store next row columns reply := by
  cases closed : store.closed with
  | true =>
    rw [closed] at done
    cases done
  | false =>
    rw [closed] at done
    obtain ⟨values, derived, rfl, rfl⟩ := MemoryStore.updateColumns_ok done
    exact of_derived closed derived

end Updated

/-- Neither written nor taken at the moment is a version from which the end of the clock is near. -/
def Moment.Early (moment : Moment) : Prop :=
  (∀ cell ∈ moment.cells, cell.version < Version.latest.previous) ∧
    ∀ version ∈ moment.taken, version < Version.latest.previous

instance (moment : Moment) : Decidable moment.Early :=
  inferInstanceAs (Decidable ((∀ cell ∈ moment.cells, cell.version < Version.latest.previous) ∧
    ∀ version ∈ moment.taken, version < Version.latest.previous))

/-- The clock is ahead of what is written and not at its end. -/
structure Unspent (past : List Moment) (store : MemoryStore) : Prop where
  ahead : Ahead past store
  room : store.clock.toNat ≤ Version.latest.previous.toNat

namespace Unspent

variable {past : List Moment} {store other : MemoryStore} {moment : Moment}

theorem alike (same : store.Alike other) (unspent : Unspent past store) : Unspent past other :=
  ⟨unspent.ahead.alike same, same.clock ▸ unspent.room⟩

theorem step (early : moment.Early) (unspent : Unspent past moment.store) :
    Unspent (past ++ [moment]) moment.after := by
  obtain ⟨written, taken⟩ := early
  have spared : moment.taken ≠ some .latest := fun latest =>
    absurd (taken _ latest) (by decide)
  refine ⟨unspent.ahead.step spared, ?_⟩
  have start := unspent.room
  obtain ⟨store, effect⟩ := moment
  cases effect with
  | make mutation =>
    cases mutation with
    | put write =>
      change (store.applyPut write).clock.toNat ≤ _
      rw [MemoryStore.clock_applyPut]
      refine Cell.clockAfter_le start (fun cell mem named => ?_) fun version given =>
        Version.lt_iff.1 (taken version given)
      have placed := written _ (List.mem_map.2 ⟨cell, mem, rfl⟩)
      rw [Cell.placed_of_named named] at placed
      exact Version.lt_iff.1 placed
    | delete removal => exact start
  | update row values =>
    have below := Version.lt_iff.1 (taken _ rfl)
    have ticked : store.tick.2.clock.toNat ≤ Version.latest.previous.toNat := by
      change (store.clock + 1).toNat ≤ _
      rw [UInt64.toNat_add]
      exact Nat.le_trans (Nat.mod_le ..) below
    cases values with
    | none => exact ticked
    | some values =>
      have named : store.tick.1.isLatest = false := by
        refine Version.isLatest_eq_false.2 fun latest => spared (congrArg some latest)
      change (store.tick.2.applyPut (.atVersion row store.tick.1 values)).clock.toNat ≤ _
      rw [MemoryStore.clock_applyPut]
      refine Cell.clockAfter_le ticked (fun cell mem _ => ?_) fun version given => ?_
      · rw [Put.version_atVersion mem]
        exact below
      · rw [(Moment.cellsAt_atVersion _ named).2] at given
        cases given

theorem not_outruns (unspent : Unspent past store) (row : Bytes) (column : Column) :
    ¬store.Outruns row column := by
  rintro ⟨version, held, above⟩
  rw [MemoryStore.mem_versionsOf_iff] at held
  have below := unspent.ahead.held _ (Option.isSome_iff_ne_none.1 held)
  have named : store.tick.1.isLatest = false := by
    refine Version.isLatest_eq_false.2 fun latest => ?_
    have room := unspent.room
    have spent : store.clock = Version.latest.value := congrArg Version.value latest
    rw [spent] at room
    exact absurd room (by decide)
  rw [MemoryStore.updateVersion, named, Version.lt_iff] at above
  change store.clock.toNat < version.toNat at above
  change version.toNat < store.clock.toNat at below
  omega

end Unspent

namespace MemoryStore

theorem exists_ok_of_isOk {α σ : Type} {outcome : Except StoreError α × σ}
    (ok : outcome.1.isOk) : ∃ reply next, outcome = (.ok reply, next) := by
  obtain ⟨result, next⟩ := outcome
  cases result with
  | error error => cases ok
  | ok reply => exact ⟨reply, next, rfl⟩

/-- Take any run of calls on a new store and any append or increment after it that succeeds. Of the
changes that the request lists for a column the last one is in force and the others are lost, unless
a cell stands above the version of the update; then all of them are lost. The reply shows the first
one. So a column shows all of its changes exactly if the lost ones come to nothing, and no other
column changes what it shows. No cell stands above the version of an update if no version from the
last but one on has been written or taken from the clock. -/
theorem updates_keep_last_changes (name : String) (config : StoreConfig)
    (calls : List StoreCall) :
    let store := ({ name := name, config := config } : MemoryStore).performAll calls
    let history := ({ name := name, config := config } : MemoryStore).history calls
    (∀ (request : Append) (reply : RowResult) (next : MemoryStore),
      store.perform (.append request) = (.ok reply, next) →
        Updated .appending store next request.row request.columns reply) ∧
    (∀ (request : Increment) (reply : RowResult) (next : MemoryStore),
      store.perform (.increment request) = (.ok reply, next) →
        Updated .counting store next request.row request.columns reply) ∧
    ((∀ moment ∈ history, moment.Early) → ∀ row column, ¬store.Outruns row column) := by
  intro store history
  refine ⟨fun request reply next done => .of_ok done, fun request reply next done => .of_ok done,
    fun early => ?_⟩
  have started : Unspent [] ({ name := name, config := config } : MemoryStore) := by
    refine ⟨⟨List.forall_mem_nil _, fun place found => absurd rfl found⟩, ?_⟩
    exact (by decide : (1 : UInt64).toNat ≤ Version.latest.previous.toNat)
  have led : Unspent ([] ++ history) store :=
    (Leads.of_history _ calls).induct Unspent Unspent.alike Unspent.step early started
  exact led.not_outruns

/-- An increment names a column first with nothing and later with seven, and another column between.
The counter that stood at five shows both, and the reply the first alone. -/
theorem updates_keep_last_changes_past_zero :
    let row := Bytes.ofText "r"
    let other := Sample.columnOf "d"
    let five : Put := { row := row, cells := [⟨Sample.column, .latest, Counter.encode 5⟩] }
    let store := ({} : MemoryStore).performAll [.put five]
    let request : Increment :=
      { row := row, columns := [(Sample.column, 0), (other, 4), (Sample.column, 7)] }
    ∃ reply next, store.perform (.increment request) = (.ok reply, next) ∧
      Accumulation.counting.Sums (some (Counter.encode 5)) [0, 7]
        (next.shown row Sample.column) ∧
      Accumulation.counting.Sums (some (Counter.encode 5)) [0] (reply.value? Sample.column) ∧
      Accumulation.counting.Sums none [4] (next.shown row other) := by
  intro row other five store request
  obtain ⟨_, increments, unspent⟩ := updates_keep_last_changes "memory" {} [.put five]
  have ahead := unspent (by decide +kernel)
  have ok : (store.perform (.increment request)).1.isOk := by decide +kernel
  obtain ⟨reply, next, done⟩ := exists_ok_of_isOk ok
  have updated := increments request reply next done
  have five_shown : store.shown row Sample.column = some (Counter.encode 5) := by decide +kernel
  have none_shown : store.shown row other = none := by decide +kernel
  have listed : listedFor Sample.column request.columns = [0, 7] := by decide +kernel
  have between : listedFor other request.columns = [4] := by decide +kernel
  have here := updated.shows_all_iff Sample.column
  have first := updated.replies Sample.column
  have there := updated.shows other
  rw [listed, wasted, if_neg (ahead row Sample.column), five_shown] at here
  rw [listed, five_shown] at first
  rw [between, lasting, if_neg (ahead row other), none_shown] at there
  exact ⟨reply, next, done, (here nofun).2 rfl, first nofun, there nofun⟩

/-- A column listed twice is left with the second suffix alone, and the reply shows the first alone.
After a version short of the last but one has been written, an increment that fails takes the last
but one, and what an append then joins to the column is not shown at all. -/
theorem updates_lose_changes :
    let row := Bytes.ofText "r"
    let twice : Append := { row := row, columns := [(Sample.column, [1]), (Sample.column, [2])] }
    let outcome := ({} : MemoryStore).perform (.append twice)
    let calls : List StoreCall :=
      [.put { row := row, cells := [⟨Sample.column, Version.latest.previous.previous, [1]⟩] },
        .increment { row := row, columns := [(Sample.column, 1)] }]
    let late := ({} : MemoryStore).performAll calls
    let append := late.perform (.append { row := row, columns := [(Sample.column, [2])] })
    outcome.1.toOption.map (·.value? Sample.column) = some (some [1]) ∧
      outcome.2.shown row Sample.column = some [2] ∧
      (∀ moment ∈ ({} : MemoryStore).history calls, ∀ cell ∈ moment.cells,
        cell.version < Version.latest.previous) ∧
      append.1.toOption.map (·.value? Sample.column) = some (some [1, 2]) ∧
      append.2.shown row Sample.column = some [1] := by
  decide +kernel

end MemoryStore

end SnapshotTable
