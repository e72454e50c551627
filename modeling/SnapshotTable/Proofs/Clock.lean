import Mathlib.Data.List.TakeWhile
import SnapshotTable.Proofs.Effect
import SnapshotTable.Proofs.Newest
import SnapshotTable.Proofs.Refinement

/-!
The versions that a memory store takes from its clock. While the clock has not handed out the
greatest version it stands above everything written, so what it hands out is newer than all of it,
and a read without a filter returns the value written there. The greatest version makes the clock
start again at zero. The put that gets it is the last one ahead of what was written; an append or
an increment that gets it asks again while its cells are written and has them at version zero.
-/

namespace SnapshotTable

set_option autoImplicit false

namespace Version

theorem isLatest_eq_false {version : Version} : version.isLatest = false ↔ version ≠ .latest := by
  simp [isLatest]

theorem lt_succ {clock : UInt64} (room : (⟨clock⟩ : Version) ≠ .latest) :
    clock.toNat < (clock + 1).toNat := by
  refine UInt64.lt_iff_toNat_lt.1 (UInt64.lt_add_one fun last => room ?_)
  rw [last]
  rfl

theorem lt_next {version : Version} (named : version.isLatest = false) :
    version.toNat < version.next.value.toNat := by
  rw [next, named]
  exact lt_succ (isLatest_eq_false.1 named)

theorem toNat_next {version : Version} (named : version.isLatest = false) :
    version.next.toNat = version.toNat + 1 := by
  have below : version.toNat ≠ latest.toNat := fun last =>
    isLatest_eq_false.1 named (ext_toNat last)
  have bound := version.toNat_le
  simp only [toNat, latest, UInt64.reduceToNat] at below bound
  rw [next, named, toNat]
  simp only [Bool.false_eq_true, if_false, UInt64.toNat_add, UInt64.reduceToNat]
  simp only [toNat]
  omega

end Version

namespace Cell

theorem pass_above (clock : UInt64) (cells : List Cell) :
    clock.toNat ≤ (pass clock cells).toNat ∧ ∀ cell ∈ cells, cell.version.isLatest = false →
      cell.version.toNat < (pass clock cells).toNat := by
  induction cells generalizing clock with
  | nil => exact ⟨Nat.le_refl _, by simp⟩
  | cons cell rest ih =>
    cases asks : cell.version.isLatest with
    | true =>
      rw [pass_of_asks asks]
      refine ⟨(ih clock).1, fun other mem named => ?_⟩
      rcases List.mem_cons.1 mem with rfl | mem
      · rw [asks] at named
        cases named
      · exact (ih clock).2 other mem named
    | false =>
      rw [pass_of_named asks]
      obtain ⟨forward, above⟩ := ih (max clock cell.version.next.value)
      rw [UInt64.toNat_max] at forward
      refine ⟨by omega, fun other mem named => ?_⟩
      rcases List.mem_cons.1 mem with rfl | mem
      · have := Version.lt_next named
        omega
      · exact above other mem named

theorem pass_le {clock : UInt64} {cells : List Cell} {bound : Nat} (start : clock.toNat ≤ bound)
    (below : ∀ cell ∈ cells, cell.version.isLatest = false → cell.version.toNat < bound) :
    (pass clock cells).toNat ≤ bound := by
  induction cells generalizing clock with
  | nil => exact start
  | cons cell rest ih =>
    obtain ⟨here, later⟩ := List.forall_mem_cons.1 below
    cases asks : cell.version.isLatest with
    | true =>
      rw [pass_of_asks asks]
      exact ih start later
    | false =>
      rw [pass_of_named asks]
      refine ih ?_ later
      have next : cell.version.next.value.toNat = cell.version.toNat + 1 :=
        Version.toNat_next asks
      have named := here asks
      rw [UInt64.toNat_max, next]
      omega

theorem leading_append_following (cells : List Cell) : leading cells ++ following cells = cells :=
  List.takeWhile_append_dropWhile

/-- The version that the cells of a put have been assigned, if one of them has asked. -/
def given? (clock : UInt64) (cells : List Cell) : Option Version :=
  if cells.any (·.version.isLatest) then some (assigned clock cells) else none

theorem isEmpty_following (cells : List Cell) :
    (following cells).isEmpty = !cells.any (·.version.isLatest) := by
  induction cells with
  | nil => rfl
  | cons cell rest ih =>
    cases asks : cell.version.isLatest with
    | true => simp [following, asks]
    | false =>
      have skipped : following (cell :: rest) = following rest := by simp [following, asks]
      rw [skipped, ih, List.any_cons, asks, Bool.false_or]

theorem clockAfter_above {clock : UInt64} {cells : List Cell}
    (room : given? clock cells ≠ some .latest) :
    clock.toNat ≤ (clockAfter clock cells).toNat ∧
      ∀ cell ∈ cells, (cell.placed (assigned clock cells)).version.toNat <
        (clockAfter clock cells).toNat := by
  cases asks : cells.any (·.version.isLatest) with
  | false =>
    rw [clockAfter, isEmpty_following, asks]
    refine ⟨(pass_above clock cells).1, fun cell mem => ?_⟩
    have named : cell.version.isLatest = false := by simpa using List.any_eq_false.1 asks cell mem
    rw [placed_of_named named]
    exact (pass_above clock cells).2 cell mem named
  | true =>
    have other : (⟨pass clock (leading cells)⟩ : Version) ≠ .latest := by
      simpa [given?, asks, assigned] using room
    have ticked := Version.lt_succ other
    obtain ⟨forward, above⟩ := pass_above clock (leading cells)
    obtain ⟨forward', above'⟩ :=
      pass_above (pass clock (leading cells) + 1) (following cells)
    rw [clockAfter, isEmpty_following, asks]
    change _ ≤ (pass (pass clock (leading cells) + 1) (following cells)).toNat ∧ ∀ cell ∈ cells,
      _ < (pass (pass clock (leading cells) + 1) (following cells)).toNat
    refine ⟨by omega, fun cell mem => ?_⟩
    cases latest : cell.version.isLatest with
    | true =>
      rw [placed_of_asks latest]
      change (pass clock (leading cells)).toNat < _
      omega
    | false =>
      rw [placed_of_named latest]
      rw [← leading_append_following cells] at mem
      rcases List.mem_append.1 mem with mem | mem
      · have := above cell mem latest
        omega
      · exact above' cell mem latest

theorem clockAfter_le {clock : UInt64} {cells : List Cell} {bound : Nat} (start : clock.toNat ≤ bound)
    (below : ∀ cell ∈ cells, cell.version.isLatest = false → cell.version.toNat < bound)
    (given : ∀ version, given? clock cells = some version → version.toNat < bound) :
    (clockAfter clock cells).toNat ≤ bound := by
  rw [clockAfter, isEmpty_following]
  cases asks : cells.any (·.version.isLatest) with
  | false => exact pass_le start below
  | true =>
    rw [← leading_append_following cells] at below
    have taken : (pass clock (leading cells)).toNat < bound :=
      given (assigned clock cells) (by rw [given?, asks]; rfl)
    have ticked : (pass clock (leading cells) + 1).toNat ≤ bound := by
      rw [UInt64.toNat_add]
      exact Nat.le_trans (Nat.mod_le ..) taken
    exact pass_le ticked fun cell mem => below cell (List.mem_append_right _ mem)

/-- No cell of the same column in the list is newer, and none at the same version comes later. -/
def Tops (cell : Cell) (cells : List Cell) : Prop :=
  ∃ before after, cells = before ++ cell :: after ∧
    (∀ other ∈ before, other.column = cell.column → other.version ≤ cell.version) ∧
      ∀ other ∈ after, other.column = cell.column → other.version < cell.version

theorem Tops.le {cell other : Cell} {cells : List Cell} (tops : cell.Tops cells)
    (mem : other ∈ cells) (column : other.column = cell.column) :
    other.version.toNat ≤ cell.version.toNat := by
  obtain ⟨before, after, rfl, earlier, later⟩ := tops
  rcases List.mem_append.1 mem with mem | mem
  · exact Version.le_iff.1 (earlier other mem column)
  · rcases List.mem_cons.1 mem with rfl | mem
    · exact Nat.le_refl _
    · exact Nat.le_of_lt (Version.lt_iff.1 (later other mem column))

end Cell

namespace FlatStore

theorem find?_write (row : Bytes) (cells : List Cell) (map : SortedMap Place Bytes Place.order)
    (place : Place) :
    (∃ cell ∈ cells, place = ⟨row, cell.column, cell.version⟩) ∨
      (write row cells map).find? place = map.find? place := by
  induction cells generalizing map with
  | nil => exact .inr rfl
  | cons cell rest ih =>
    have later := ih (map.insert ⟨row, cell.column, cell.version⟩ cell.value)
    rcases later with ⟨other, mem, here⟩ | same
    · exact .inl ⟨other, List.mem_cons_of_mem _ mem, here⟩
    · by_cases here : place = ⟨row, cell.column, cell.version⟩
      · exact .inl ⟨cell, List.mem_cons_self .., here⟩
      · rw [SortedMap.find?_insert_eq, if_neg here] at same
        exact .inr same

theorem find?_write_some {row : Bytes} {cells : List Cell}
    {map : SortedMap Place Bytes Place.order} {place : Place} {value : Bytes}
    (found : (write row cells map).find? place = some value) :
    map.find? place = some value ∨
      place.row = row ∧ (⟨place.column, place.version, value⟩ : Cell) ∈ cells := by
  induction cells generalizing map with
  | nil => exact .inl found
  | cons cell rest ih =>
    have step : write row (cell :: rest) map =
        write row rest (map.insert ⟨row, cell.column, cell.version⟩ cell.value) := rfl
    rw [step] at found
    rcases ih found with stood | ⟨here, mem⟩
    · rw [SortedMap.find?_insert_eq] at stood
      split at stood
      · rename_i same
        cases stood
        subst same
        exact .inr ⟨rfl, List.mem_cons_self ..⟩
      · exact .inl stood
    · exact .inr ⟨here, List.mem_cons_of_mem _ mem⟩

theorem write_append (row : Bytes) (first second : List Cell)
    (map : SortedMap Place Bytes Place.order) :
    write row (first ++ second) map = write row second (write row first map) :=
  List.foldl_append

theorem find?_write_of_tops {row : Bytes} {cell : Cell} {cells : List Cell}
    (tops : cell.Tops cells) (map : SortedMap Place Bytes Place.order) :
    (write row cells map).find? ⟨row, cell.column, cell.version⟩ = some cell.value := by
  obtain ⟨before, after, rfl, _, later⟩ := tops
  rw [write_append]
  rcases find?_write row after ((write row before map).insert ⟨row, cell.column, cell.version⟩
    cell.value) ⟨row, cell.column, cell.version⟩ with ⟨other, mem, here⟩ | same
  · simp only [Place.mk.injEq, true_and] at here
    have below := Version.lt_iff.1 (later other mem here.1.symm)
    rw [here.2] at below
    exact absurd below (Nat.lt_irrefl _)
  · rw [SortedMap.find?_insert_eq, if_pos rfl] at same
    exact same

end FlatStore

namespace Put

/-- The cells of a put as they are written at a clock. -/
def cellsAt (put : Put) (clock : UInt64) : List Cell :=
  put.cells.map (·.placed (Cell.assigned clock put.cells))

theorem version_atVersion {row : Bytes} {version : Version} {values : List (Column × Bytes)}
    {cell : Cell} (mem : cell ∈ (Put.atVersion row version values).cells) :
    cell.version = version := by
  obtain ⟨_, _, rfl⟩ := List.mem_map.1 mem
  rfl

end Put

namespace MemoryStore

theorem contents_applyPut (store : MemoryStore) (put : Put) (place : Place) :
    (store.applyPut put).contents place =
      (FlatStore.write put.row (put.cellsAt store.clock) store.flat.cells).find? place := by
  rw [← find?_flat, applyPut_flat]
  rfl

theorem clock_applyPut (store : MemoryStore) (put : Put) :
    (store.applyPut put).clock = Cell.clockAfter store.clock put.cells :=
  congrArg FlatStore.clock (store.applyPut_flat put)

theorem contents_applyPut_some {store : MemoryStore} {put : Put} {place : Place}
    (found : (store.applyPut put).contents place ≠ none) :
    (∃ cell ∈ put.cellsAt store.clock, place = ⟨put.row, cell.column, cell.version⟩) ∨
      store.contents place ≠ none := by
  rw [contents_applyPut] at found
  rcases FlatStore.find?_write put.row (put.cellsAt store.clock) store.flat.cells place with
    written | same
  · exact .inl written
  · rw [same, find?_flat] at found
    exact .inr found

theorem newest_applyPut {store : MemoryStore} {put : Put} {cell : Cell}
    (tops : cell.Tops (put.cellsAt store.clock))
    (above : ∀ version, store.contents ⟨put.row, cell.column, version⟩ ≠ none →
      version.toNat ≤ cell.version.toNat) :
    (store.applyPut put).contents.Newest put.row cell.column (some cell.value) := by
  refine ⟨cell.version, ?_, fun newer lt => ?_⟩
  · rw [contents_applyPut]
    exact FlatStore.find?_write_of_tops tops _
  · by_contra found
    rw [Version.lt_iff] at lt
    rcases contents_applyPut_some found with ⟨other, mem, here⟩ | stood
    · simp only [Place.mk.injEq, true_and] at here
      have := tops.le mem here.1.symm
      rw [here.2] at lt
      omega
    · have := above newer stood
      omega

end MemoryStore

namespace Moment

def met (moment : Moment) : MemoryStore :=
  match moment.effect with
  | .make _ => moment.store
  | .update _ _ => moment.store.tick.2

def write? (moment : Moment) : Option Put :=
  match moment.effect with
  | .make (.put write) => some write
  | .make (.delete _) => none
  | .update row values => values.map (Put.atVersion row moment.store.tick.1)

/-- The cells of a moment, at the versions at which they are written. A put that waits in the buffer
writes when it is flushed. -/
def cells (moment : Moment) : List Cell :=
  moment.write?.elim [] fun write => write.cellsAt moment.met.clock

def chosen (moment : Moment) : List Cell :=
  match moment.effect with
  | .make (.put write) =>
    (write.cells.filter (·.version.isLatest)).map (·.placed (Cell.assigned moment.store.clock
      write.cells))
  | .make (.delete _) => []
  | .update _ _ => moment.cells

def taken (moment : Moment) : Option Version :=
  match moment.effect with
  | .make (.put write) => Cell.given? moment.store.clock write.cells
  | .make (.delete _) => none
  | .update _ _ => some moment.store.tick.1

def row (moment : Moment) : Bytes := moment.effect.row

/-- The cells of a column stay as they are. -/
def Spares (moment : Moment) (row : Bytes) (column : Column) : Prop :=
  ∀ version, moment.after.contents ⟨row, column, version⟩ =
    moment.store.contents ⟨row, column, version⟩

theorem contents_met (moment : Moment) : moment.met.contents = moment.store.contents := by
  obtain ⟨store, effect⟩ := moment
  cases effect <;> rfl

theorem cells_of_write {moment : Moment} {write : Put} (writes : moment.write? = some write) :
    moment.cells = write.cellsAt moment.met.clock := by
  rw [cells, writes]
  rfl

theorem after_of_write {moment : Moment} {write : Put} (writes : moment.write? = some write) :
    moment.after = moment.met.applyPut write ∧ moment.row = write.row := by
  obtain ⟨store, effect⟩ := moment
  cases effect with
  | make mutation =>
    cases mutation with
    | put request =>
      cases writes
      exact ⟨rfl, rfl⟩
    | delete removal => cases writes
  | update row values =>
    obtain ⟨given, rfl, rfl⟩ := Option.map_eq_some_iff.1 writes
    exact ⟨rfl, rfl⟩

/-- An update that has taken the greatest version asks once more when its cells are written. -/
def asksAgain (moment : Moment) : Bool :=
  match moment.effect with
  | .make _ => false
  | .update _ _ => moment.store.tick.1.isLatest

theorem cellsAt_atVersion {row : Bytes} {version : Version} {values : List (Column × Bytes)}
    (clock : UInt64) (named : version.isLatest = false) :
    (∀ cell ∈ (Put.atVersion row version values).cellsAt clock, cell.version = version) ∧
      Cell.given? clock (Put.atVersion row version values).cells = none := by
  have same : ∀ cell ∈ (Put.atVersion row version values).cells, cell.version = version :=
    fun _ => Put.version_atVersion
  constructor
  · intro cell mem
    obtain ⟨other, listed, rfl⟩ := List.mem_map.1 mem
    rw [Cell.placed_of_named ((congrArg _ (same other listed)).trans named)]
    exact same other listed
  · have none : (Put.atVersion row version values).cells.any (·.version.isLatest) = false := by
      rw [List.any_eq_false]
      intro cell mem
      rw [same cell mem, named]
      exact Bool.false_ne_true
    rw [Cell.given?, none]
    rfl

theorem version_of_asksAgain {moment : Moment} (again : moment.asksAgain) :
    ∀ cell ∈ moment.cells, cell.version = .zero := by
  obtain ⟨store, effect⟩ := moment
  cases effect with
  | make mutation => cases again
  | update row values =>
    have latest : store.tick.1 = .latest := by simpa [asksAgain, Version.isLatest] using again
    have started : store.tick.2.clock = 0 := by
      have spent : store.clock = Version.latest.value := congrArg Version.value latest
      simp only [MemoryStore.tick, spent]
      rfl
    intro cell mem
    cases values with
    | none => cases mem
    | some values =>
      simp only [cells, write?, met, Option.map_some, Option.elim_some, latest, started] at mem
      obtain ⟨other, listed, rfl⟩ := List.mem_map.1 mem
      have asking : ∀ cell ∈ (Put.atVersion row .latest values).cells, cell.version.isLatest := by
        intro cell mem
        rw [Put.version_atVersion mem]
        rfl
      rw [Cell.placed_of_asks (asking other listed)]
      cases values with
      | nil => cases listed
      | cons first rest => rfl

theorem mem_cells_of_mem_chosen {moment : Moment} {cell : Cell} (mem : cell ∈ moment.chosen) :
    cell ∈ moment.cells := by
  obtain ⟨store, effect⟩ := moment
  cases effect with
  | make mutation =>
    cases mutation with
    | put write =>
      obtain ⟨asking, listed, rfl⟩ := List.mem_map.1 mem
      exact List.mem_map.2 ⟨asking, (List.mem_filter.1 listed).1, rfl⟩
    | delete removal => cases mem
  | update row values => exact mem

theorem le_of_mem_chosen {moment : Moment} (once : moment.asksAgain = false) {cell : Cell}
    (mem : cell ∈ moment.chosen) : moment.store.clock.toNat ≤ cell.version.toNat := by
  obtain ⟨store, effect⟩ := moment
  cases effect with
  | make mutation =>
    cases mutation with
    | put write =>
      obtain ⟨asking, listed, rfl⟩ := List.mem_map.1 mem
      rw [Cell.placed_of_asks (List.mem_filter.1 listed).2]
      exact (Cell.pass_above store.clock (Cell.leading write.cells)).1
    | delete removal => cases mem
  | update row values =>
    have named : store.tick.1.isLatest = false := once
    cases values with
    | none => cases mem
    | some values =>
      rw [(cellsAt_atVersion _ named).1 cell mem]
      exact Nat.le_refl _

theorem spares_of_other_row {moment : Moment} {row : Bytes} {column : Column}
    (other : moment.row ≠ row) : moment.Spares row column := by
  intro version
  cases writes : moment.write? with
  | some write =>
    obtain ⟨after, here⟩ := after_of_write writes
    rw [here] at other
    rw [after, MemoryStore.contents_applyPut, ← moment.contents_met, ← MemoryStore.find?_flat]
    rcases FlatStore.find?_write write.row (write.cellsAt moment.met.clock) moment.met.flat.cells
      ⟨row, column, version⟩ with ⟨cell, _, same⟩ | same
    · exact absurd (congrArg Place.row same).symm other
    · exact same
  | none =>
    obtain ⟨store, effect⟩ := moment
    cases effect with
    | make mutation =>
      cases mutation with
      | put write => cases writes
      | delete removal =>
        have removed := store.cell?_applyDelete removal row column version
        rw [if_neg fun covered => other covered.1.symm] at removed
        exact removed
    | update row values =>
      cases values with
      | none => rfl
      | some values => cases writes

end Moment

/-- The clock stands above every version that has been written. -/
structure Ahead (past : List Moment) (store : MemoryStore) : Prop where
  written : ∀ moment ∈ past, ∀ cell ∈ moment.cells, cell.version.toNat < store.clock.toNat
  held : ∀ place, store.contents place ≠ none → place.version.toNat < store.clock.toNat

namespace Ahead

variable {past : List Moment} {store other : MemoryStore} {moment : Moment}

theorem alike (same : store.Alike other) (ahead : Ahead past store) : Ahead past other := by
  obtain ⟨written, held⟩ := ahead
  rw [same.contents] at held
  rw [same.clock] at written held
  exact ⟨written, held⟩

theorem mono (ahead : Ahead past store) (forward : store.clock.toNat ≤ other.clock.toNat)
    (fewer : ∀ place, other.contents place ≠ none → store.contents place ≠ none) :
    Ahead past other where
  written := fun moment mem cell listed =>
    Nat.lt_of_lt_of_le (ahead.written moment mem cell listed) forward
  held := fun place found => Nat.lt_of_lt_of_le (ahead.held place (fewer place found)) forward

theorem quiet (ahead : Ahead past store) (nothing : moment.cells = []) :
    Ahead (past ++ [moment]) store where
  written := by
    intro other mem cell listed
    rcases List.mem_append.1 mem with mem | mem
    · exact ahead.written other mem cell listed
    · rw [List.mem_singleton.1 mem, nothing] at listed
      cases listed
  held := ahead.held

theorem tick (ahead : Ahead past store) (room : store.tick.1 ≠ .latest) :
    Ahead past store.tick.2 :=
  ahead.mono (Nat.le_of_lt (Version.lt_succ room)) fun _ found => found

theorem put (ahead : Ahead past store) {write : Put}
    (room : Cell.given? store.clock write.cells ≠ some .latest)
    (cells : moment.cells = write.cellsAt store.clock) :
    Ahead (past ++ [moment]) (store.applyPut write) := by
  obtain ⟨forward, above⟩ := Cell.clockAfter_above room
  rw [← store.clock_applyPut] at forward above
  have placed : ∀ cell ∈ write.cellsAt store.clock,
      cell.version.toNat < (store.applyPut write).clock.toNat := by
    intro cell mem
    obtain ⟨asked, listed, rfl⟩ := List.mem_map.1 mem
    exact above asked listed
  constructor
  · intro other mem cell listed
    rcases List.mem_append.1 mem with mem | mem
    · exact Nat.lt_of_lt_of_le (ahead.written other mem cell listed) forward
    · rw [List.mem_singleton.1 mem, cells] at listed
      exact placed cell listed
  · intro place found
    rcases MemoryStore.contents_applyPut_some found with ⟨cell, mem, rfl⟩ | stood
    · exact placed cell mem
    · exact Nat.lt_of_lt_of_le (ahead.held place stood) forward

/-- The clock stays ahead as long as the greatest version is not taken from it. -/
theorem step (room : moment.taken ≠ some .latest) (ahead : Ahead past moment.store) :
    Ahead (past ++ [moment]) moment.after := by
  obtain ⟨store, effect⟩ := moment
  cases effect with
  | make mutation =>
    cases mutation with
    | put write => exact ahead.put room rfl
    | delete removal =>
      have fewer : ∀ place, (store.applyDelete removal).contents place ≠ none →
          store.contents place ≠ none := by
        intro place found stood
        have removed := store.cell?_applyDelete removal place.row place.column place.version
        rw [MemoryStore.contents] at stood
        rw [MemoryStore.contents, removed, stood, ite_self] at found
        exact found rfl
      have kept : Ahead past (store.applyDelete removal) := ahead.mono (Nat.le_refl _) fewer
      exact kept.quiet rfl
  | update row values =>
    have spared : store.tick.1 ≠ .latest := fun latest => room (congrArg some latest)
    have ticked := ahead.tick spared
    cases values with
    | none => exact ticked.quiet rfl
    | some values =>
      have named := Version.isLatest_eq_false.2 spared
      refine ticked.put ?_ rfl
      rw [(Moment.cellsAt_atVersion _ named).2]
      exact (Option.some_ne_none _).symm

theorem run {start : MemoryStore} {moments : List Moment} (leads : Leads start moments store)
    (empty : start.contents = fun _ => none)
    (room : ∀ moment ∈ moments, moment.taken ≠ some .latest) : Ahead moments store := by
  have started : Ahead [] start := by
    refine ⟨by simp, fun place found => ?_⟩
    rw [empty] at found
    exact absurd rfl found
  have led : Ahead ([] ++ moments) store := leads.induct Ahead alike step room started
  exact led

end Ahead

/-- The newest cell that is written to a column beside a chosen version is the newest of all. -/
theorem Moment.newest_after {past : List Moment} (moment : Moment) (ahead : Ahead past moment.store)
    (once : moment.asksAgain = false) {cell given : Cell} (tops : cell.Tops moment.cells)
    (mem : given ∈ moment.chosen) (column : given.column = cell.column) :
    moment.after.contents.Newest moment.row cell.column (some cell.value) := by
  have listed := mem_cells_of_mem_chosen mem
  cases writes : moment.write? with
  | none =>
    rw [cells, writes] at listed
    cases listed
  | some write =>
    obtain ⟨after, row⟩ := after_of_write writes
    have above : ∀ place, moment.met.contents place ≠ none →
        place.version.toNat ≤ cell.version.toNat := by
      intro place found
      have below := ahead.held place (moment.contents_met ▸ found)
      have le := le_of_mem_chosen once mem
      have top := tops.le listed column
      omega
    rw [cells_of_write writes] at tops
    rw [after, row]
    exact MemoryStore.newest_applyPut tops fun version found => above _ found

theorem Leads.spared {start last : MemoryStore} {moments : List Moment} {row : Bytes}
    {column : Column} (leads : Leads start moments last)
    (spare : ∀ moment ∈ moments, moment.Spares row column) (version : Version) :
    last.contents ⟨row, column, version⟩ = start.contents ⟨row, column, version⟩ := by
  induction leads with
  | nil same => rw [same.contents]
  | cons same _ ih =>
    obtain ⟨here, later⟩ := List.forall_mem_cons.1 spare
    rw [ih later, here version, same.contents]

namespace MemoryStore

theorem contents_new (name : String) (config : StoreConfig) :
    ({ name := name, config := config } : MemoryStore).contents = fun _ => none := rfl

theorem perform_get_of_open {store : MemoryStore} (opened : store.closed = false) (request : Get) :
    store.perform (.get request) = (.ok (store.get request), store) := by
  simp [perform, performOpen, opened]

/-- Take any run of calls on a new store and a moment of it before which no cell has been given the
greatest version; an update must not take that version itself. Each version that the store chooses
at that moment is above all that have been written before it. The newest cell that is written to a
column beside or at a chosen version is what a read without a filter returns of that column, until
the column is written or deleted again. -/
theorem assigned_versions_run_ahead (name : String) (config : StoreConfig)
    (calls : List StoreCall) {earlier later : List Moment} {moment : Moment}
    (split : ({ name := name, config := config } : MemoryStore).history calls =
      earlier ++ moment :: later)
    (unspent : ∀ past ∈ earlier, past.taken ≠ some .latest) (once : moment.asksAgain = false) :
    let last := ({ name := name, config := config } : MemoryStore).performAll calls
    (∀ given ∈ moment.chosen, ∀ past ∈ earlier, ∀ cell ∈ past.cells,
      cell.version < given.version) ∧
    ∀ cell : Cell, cell.Tops moment.cells → (∃ given ∈ moment.chosen, given.column = cell.column) →
      (∀ next ∈ later, next.Spares moment.row cell.column) → last.closed = false →
        ∃ result, (last.perform (.get { row := moment.row })).1 = .ok result ∧
          result.value? cell.column = some cell.value := by
  intro last
  have leads := Leads.of_history ({ name := name, config := config } : MemoryStore) calls
  rw [split] at leads
  have ahead : Ahead earlier moment.store := .run leads.before (contents_new name config) unspent
  constructor
  · intro given mem past member cell listed
    have below := ahead.written past member cell listed
    have above := Moment.le_of_mem_chosen once mem
    exact Version.lt_iff.2 (Nat.lt_of_lt_of_le below above)
  · rintro cell tops ⟨given, mem, column⟩ spare opened
    have newest := moment.newest_after ahead once tops mem column
    have kept := newest.congr (leads.after.spared spare)
    refine ⟨last.get { row := moment.row }, by rw [perform_get_of_open opened], ?_⟩
    exact value?_get kept rfl (fun _ _ => rfl) Nat.zero_lt_one

/-- A buffered put at version five and one that leaves its version to the store beside a cell at
version nine are flushed together. The append that follows takes the tenth, and a delete of another
row leaves its column alone. -/
theorem assigned_versions_run_ahead_of_flushed_put :
    let row := Bytes.ofText "r"
    let counted := Sample.columnOf "d"
    let calls : List StoreCall := [.put { row := row, cells := [⟨Sample.column, ⟨5⟩, [1]⟩] },
      .put { row := row, cells := [⟨Sample.column, .latest, [2]⟩, ⟨counted, ⟨9⟩, [3]⟩] },
      .append { row := row, columns := [(counted, [4])] },
      .checkAndDelete ⟨[], Sample.column, none⟩ { row := [] }]
    let last := ({ config := ⟨false, 2⟩ } : MemoryStore).performAll calls
    ∃ first second third fourth,
      ({ config := ⟨false, 2⟩ } : MemoryStore).history calls = [first, second, third, fourth] ∧
      second.cells = [⟨Sample.column, ⟨6⟩, [2]⟩, ⟨counted, ⟨9⟩, [3]⟩] ∧
      third.chosen = [⟨counted, ⟨10⟩, [3, 4]⟩] ∧
      (∀ cell ∈ second.cells, cell.version < ⟨10⟩) ∧
      ∃ result, (last.perform (.get { row := row })).1 = .ok result ∧
        result.value? counted = some [3, 4] := by
  intro row counted calls last
  obtain ⟨first, second, third, fourth, split, written, cells, given, here, away, unspent, once⟩ :
      ∃ first second third fourth : Moment, ({ config := ⟨false, 2⟩ } : MemoryStore).history calls =
          [first, second] ++ third :: [fourth] ∧
        second.cells = [⟨Sample.column, ⟨6⟩, [2]⟩, ⟨counted, ⟨9⟩, [3]⟩] ∧
        third.cells = [⟨counted, ⟨10⟩, [3, 4]⟩] ∧ third.chosen = [⟨counted, ⟨10⟩, [3, 4]⟩] ∧
        third.row = row ∧ fourth.row ≠ row ∧
        (∀ past ∈ [first, second], past.taken ≠ some .latest) ∧ third.asksAgain = false :=
    ⟨_, _, _, _, rfl, by decide +kernel, by decide +kernel, by decide +kernel, rfl,
      by decide +kernel, by decide +kernel, rfl⟩
  obtain ⟨ahead, shown⟩ :=
    assigned_versions_run_ahead "memory" ⟨false, 2⟩ calls split unspent once
  rw [cells, given, here] at shown
  rw [given] at ahead
  refine ⟨first, second, third, fourth, split, written, given, ?_, ?_⟩
  · exact ahead _ (List.mem_singleton_self _) second (by simp)
  · refine shown _ ⟨[], [], rfl, nofun, nofun⟩ ⟨_, List.mem_singleton_self _, rfl⟩ ?_ rfl
    intro next mem
    rw [List.mem_singleton.1 mem]
    exact Moment.spares_of_other_row away

/-- With the greatest version being ahead is over. A put that takes it has a cell which no version
that is chosen is above, and an update that takes it writes at the least version of all. -/
theorem ahead_until_greatest_version {past : Moment} (taken : past.taken = some .latest) :
    (∃ given ∈ past.chosen, ∀ version : Version, ¬given.version < version) ∨
      ∀ given ∈ past.chosen, ∀ version : Version, ¬version < given.version := by
  obtain ⟨store, effect⟩ := past
  cases effect with
  | make mutation =>
    cases mutation with
    | delete removal => cases taken
    | put write =>
      obtain ⟨asks, assigned⟩ := Option.ite_none_right_eq_some.1 taken
      obtain ⟨cell, mem, latest⟩ := List.any_eq_true.1 asks
      refine .inl ⟨_, List.mem_map.2 ⟨cell, List.mem_filter.2 ⟨mem, latest⟩, rfl⟩, ?_⟩
      intro version above
      rw [Cell.placed_of_asks latest, Option.some.inj assigned, Version.lt_iff] at above
      exact absurd version.toNat_le (Nat.not_le.2 above)
  | update row values =>
    have again : Moment.asksAgain ⟨store, .update row values⟩ :=
      beq_iff_eq.2 (Option.some.inj taken)
    refine .inr fun given mem version below => ?_
    rw [Moment.version_of_asksAgain again given mem, Version.lt_iff] at below
    exact Nat.not_lt_zero _ below

/-- A put at the greatest version but one sets the clock to the greatest. The append that follows
tells that version, writes its cell at version zero, and a read returns the value of the put. -/
theorem append_at_end_of_clock_is_behind :
    let row := Bytes.ofText "r"
    let calls : List StoreCall :=
      [.put { row := row, cells := [⟨Sample.column, Version.latest.previous, [1]⟩] },
        .append { row := row, columns := [(Sample.column, [2])] }]
    let last := ({} : MemoryStore).performAll calls
    ∃ first second, ({} : MemoryStore).history calls = [first, second] ∧
      first.cells = [⟨Sample.column, Version.latest.previous, [1]⟩] ∧
      second.chosen = [⟨Sample.column, .zero, [1, 2]⟩] ∧
      ((last.perform (.get { row := row })).1.map fun result => result.value? Sample.column) =
        .ok (some [1]) := by
  intro row calls last
  exact ⟨_, _, rfl, by decide +kernel, by decide +kernel, by decide +kernel⟩

end MemoryStore

end SnapshotTable
