import SnapshotTable.Store.Memory

/-!
A memory store as a flat map from places to values. A mutation whose versions are all given does one
of three things at a place: it leaves the place alone, empties it, or fills it. What a sequence of
mutations leaves at a place is therefore what the last one that touches it says, and the buffer of a
store only puts off when that shows.
-/

namespace SnapshotTable

set_option autoImplicit false

/-- Where a cell stands in a store. -/
structure Place where
  row : Bytes
  column : Column
  version : Version
deriving DecidableEq

abbrev Contents := Place → Option Bytes

/-- What a write makes of each place: nothing, or a new value, which may be none. -/
abbrev Change := Place → Option (Option Bytes)

namespace Contents

def apply (contents : Contents) (change : Change) : Contents :=
  fun place => (change place).getD (contents place)

def applyAll (contents : Contents) (changes : List Change) : Contents :=
  changes.foldl apply contents

theorem applyAll_append (contents : Contents) (first second : List Change) :
    contents.applyAll (first ++ second) = (contents.applyAll first).applyAll second :=
  List.foldl_append ..

theorem applyAll_last (contents : Contents) (changes : List Change) (place : Place) :
    contents.applyAll changes place =
      (changes.reverse.findSome? (· place)).getD (contents place) := by
  induction changes generalizing contents with
  | nil => rfl
  | cons change rest ih =>
    have step : contents.applyAll (change :: rest) = (contents.apply change).applyAll rest := rfl
    rw [step, ih, List.reverse_cons, List.findSome?_append]
    cases last : rest.reverse.findSome? (· place) with
    | some value => rfl
    | none => cases here : change place <;> simp [apply, here]

theorem applyAll_congr {contents other : Contents} {place : Place}
    (same : contents place = other place) (changes : List Change) :
    contents.applyAll changes place = other.applyAll changes place := by
  rw [applyAll_last, applyAll_last, same]

theorem applyAll_untouched (contents : Contents) {changes : List Change} {place : Place}
    (untouched : ∀ change ∈ changes, change place = none) :
    contents.applyAll changes place = contents place := by
  have absent : changes.reverse.findSome? (· place) = none := by
    rw [List.findSome?_eq_none_iff]
    intro change mem
    exact untouched change (List.mem_reverse.1 mem)
  rw [applyAll_last, absent]
  rfl

theorem applyAll_of_no_value (contents : Contents) {changes : List Change} {place : Place}
    (valueless : ∀ change ∈ changes, ∀ value, change place ≠ some (some value)) :
    contents.applyAll changes place =
      if changes.any (fun change => change place == some none) then none else contents place := by
  induction changes generalizing contents with
  | nil => rfl
  | cons change rest ih =>
    have later := ih (contents.apply change) fun other mem =>
      valueless other (List.mem_cons_of_mem _ mem)
    change (contents.apply change).applyAll rest place = _
    rw [later, List.any_cons, apply]
    have here := valueless change (List.mem_cons_self ..)
    cases touched : change place with
    | none => simp
    | some written =>
      cases written with
      | none => simp
      | some value => exact absurd touched (here value)

theorem applyAll_some (contents : Contents) {changes : List Change} {place : Place}
    {value : Bytes} (found : contents.applyAll changes place = some value) :
    contents place = some value ∨ ∃ change ∈ changes, change place = some (some value) := by
  rw [applyAll_last] at found
  cases last : changes.reverse.findSome? (· place) with
  | none => exact .inl (by simpa [last] using found)
  | some written =>
    obtain ⟨change, mem, here⟩ := List.exists_of_findSome?_eq_some last
    rw [last, Option.getD_some] at found
    exact .inr ⟨change, List.mem_reverse.1 mem, found ▸ here⟩

/-- A first run of changes leaves no trace under a second one that touches the same places. -/
theorem applyAll_absorb (contents : Contents) {first second : List Change}
    (covered : ∀ change ∈ first, ∀ place, change place ≠ none →
      ∃ later ∈ second, later place ≠ none) :
    (contents.applyAll first).applyAll second = contents.applyAll second := by
  funext place
  rw [applyAll_last _ second, applyAll_last _ second]
  cases last : second.reverse.findSome? (· place) with
  | some value => rfl
  | none =>
    apply applyAll_untouched contents
    intro change mem
    cases here : change place with
    | none => rfl
    | some written =>
      obtain ⟨later, member, touched⟩ := covered change mem place (by simp [here])
      exact absurd (List.findSome?_eq_none_iff.1 last later (List.mem_reverse.2 member)) touched

end Contents

/-- The value that a put gives a place of its row; of several cells at one place the last counts. -/
def Put.cellAt? (put : Put) (column : Column) (version : Version) : Option Bytes :=
  (put.cells.reverse.find? fun cell => cell.column = column ∧ cell.version = version).map (·.value)

namespace Mutation

def Explicit : Mutation → Prop
  | put write => ∀ cell ∈ write.cells, cell.version ≠ .latest
  | delete _ => True

def change : Mutation → Place → Option (Option Bytes)
  | put write, place =>
    if place.row = write.row then (write.cellAt? place.column place.version).map some else none
  | delete removal, place =>
    if place.row = removal.row ∧ removal.covers place.column place.version then some none else none

end Mutation

namespace MemoryStore

def contents (store : MemoryStore) : Contents :=
  fun place => store.cell? place.row place.column place.version

theorem contents_withRow (store : MemoryStore) (row : Bytes) :
    contents { store with
      rows := store.rows.alter row fun columns => some (columns.getD .empty) } =
        store.contents := by
  funext place
  simp only [contents, cell?, SortedMap.find?_alter_eq]
  by_cases same : place.row = row
  · subst same
    cases store.rows.find? place.row <;> simp [Columns.cell?]
  · simp [same]

theorem writeCells_frame (row : Bytes) (cells : List Cell) (assigned : Option Version)
    (store : MemoryStore) : ∃ rows clock,
      writeCells row cells assigned store = { store with rows := rows, clock := clock } := by
  induction cells generalizing assigned store with
  | nil => exact ⟨_, _, rfl⟩
  | cons cell rest ih =>
    obtain ⟨rows, clock, same⟩ := ih (store.resolve cell.version assigned).2.1
      ((store.resolve cell.version assigned).2.2.insertCell row cell.column
        (store.resolve cell.version assigned).1 cell.value)
    refine ⟨rows, clock, same.trans ?_⟩
    simp only [resolve]
    split
    · cases assigned <;> rfl
    · rfl

theorem apply_frame (store : MemoryStore) (mutation : Mutation) : ∃ rows clock,
    store.apply mutation = { store with rows := rows, clock := clock } := by
  cases mutation with
  | put write =>
    obtain ⟨rows, clock, same⟩ := writeCells_frame write.row write.cells none
      { store with rows := store.rows.alter write.row fun columns => some (columns.getD .empty) }
    exact ⟨rows, clock, same⟩
  | delete removal => exact ⟨_, _, rfl⟩

theorem foldl_apply_frame (store : MemoryStore) (mutations : List Mutation) : ∃ rows clock,
    mutations.foldl apply store = { store with rows := rows, clock := clock } := by
  induction mutations generalizing store with
  | nil => exact ⟨_, _, rfl⟩
  | cons mutation rest ih =>
    obtain ⟨rows, clock, same⟩ := store.apply_frame mutation
    rw [List.foldl_cons, same]
    exact ih _

@[simp] theorem buffer_apply (store : MemoryStore) (mutation : Mutation) :
    (store.apply mutation).buffer = store.buffer := by
  obtain ⟨rows, clock, same⟩ := store.apply_frame mutation
  rw [same]

@[simp] theorem config_apply (store : MemoryStore) (mutation : Mutation) :
    (store.apply mutation).config = store.config := by
  obtain ⟨rows, clock, same⟩ := store.apply_frame mutation
  rw [same]

@[simp] theorem closed_apply (store : MemoryStore) (mutation : Mutation) :
    (store.apply mutation).closed = store.closed := by
  obtain ⟨rows, clock, same⟩ := store.apply_frame mutation
  rw [same]

theorem contents_writeCells (row : Bytes) {cells : List Cell} (assigned : Option Version)
    (store : MemoryStore) (explicit : ∀ cell ∈ cells, cell.version ≠ .latest) :
    (writeCells row cells assigned store).contents =
      store.contents.apply (Mutation.change (.put { row := row, cells := cells })) := by
  induction cells generalizing assigned store with
  | nil =>
    funext place
    simp [writeCells, Contents.apply, Mutation.change, Put.cellAt?]
  | cons cell rest ih =>
    have ordinary : cell.version.isLatest = false := by
      simpa [Version.isLatest] using explicit cell (List.mem_cons_self ..)
    have step : writeCells row (cell :: rest) assigned store =
        writeCells row rest assigned
          ((store.passVersion cell.version).insertCell row cell.column cell.version
            cell.value) := by
      simp [writeCells, resolve, ordinary]
    rw [step, ih _ _ fun other mem => explicit other (List.mem_cons_of_mem _ mem)]
    funext place
    have inserted := (store.passVersion cell.version).cell?_insertCell row cell.column
      cell.version cell.value place.row place.column place.version
    have passed : (store.passVersion cell.version).cell? place.row place.column place.version =
        store.contents place := rfl
    simp only [Contents.apply, Mutation.change, Put.cellAt?, List.reverse_cons,
      List.find?_append, contents, inserted]
    rw [passed]
    by_cases same : place.row = row
    · cases later : rest.reverse.find? fun cell =>
          decide (cell.column = place.column ∧ cell.version = place.version) with
      | some found => simp [same]
      | none =>
        by_cases here : cell.column = place.column ∧ cell.version = place.version
        · simp [same, here]
        · have away : ¬(place.column = cell.column ∧ place.version = cell.version) := by
            rintro ⟨column, version⟩
            exact here ⟨column.symm, version.symm⟩
          simp [same, here, away, contents]
    · simp [same, contents]

/-- In the flat view a mutation is its change. -/
theorem contents_apply (store : MemoryStore) {mutation : Mutation} (explicit : mutation.Explicit) :
    (store.apply mutation).contents = store.contents.apply mutation.change := by
  cases mutation with
  | put write =>
    have written := contents_writeCells write.row none
      { store with rows := store.rows.alter write.row fun columns => some (columns.getD .empty) }
      explicit
    rw [contents_withRow] at written
    exact written
  | delete removal =>
    funext place
    have removed := store.cell?_applyDelete removal place.row place.column place.version
    simp only [Contents.apply, Mutation.change, contents, apply, removed]
    split <;> rfl

theorem contents_foldl_apply (store : MemoryStore) {mutations : List Mutation}
    (explicit : ∀ mutation ∈ mutations, mutation.Explicit) :
    (mutations.foldl apply store).contents =
      store.contents.applyAll (mutations.map (·.change)) := by
  induction mutations generalizing store with
  | nil => rfl
  | cons mutation rest ih =>
    rw [List.foldl_cons, ih _ fun other mem => explicit other (List.mem_cons_of_mem _ mem),
      contents_apply _ (explicit mutation (List.mem_cons_self ..))]
    rfl

end MemoryStore

end SnapshotTable
