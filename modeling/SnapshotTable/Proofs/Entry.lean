import Mathlib.Tactic.ByContra
import SnapshotTable.Proofs.Reads
import SnapshotTable.Proofs.Layer
import SnapshotTable.Proofs.Stamp
import SnapshotTable.Table.Commit

/-!
Entries of a table's log: the mutation that commit makes of one, the change with which rollback
takes it back, and how it was prepared. The undoing of an entry touches every place at which the
entry could write a value, and it writes only values from the image that was captured.
-/

namespace SnapshotTable

set_option autoImplicit false

namespace PendingEntry

def mutation? : PendingEntry → Option Mutation
  | get _ => none
  | put request => some (.put request)
  | delete request _ _ => some (.delete request)

def undo : PendingEntry → Change
  | get _ => fun _ => none
  | put request => Mutation.change (.delete {
      row := request.row
      scopes := request.cells.map fun cell => .version cell.column cell.version })
  | delete _ _ undoImage =>
    Mutation.change (.put { row := undoImage.row, cells := undoImage.cells })

/-- Rollback has something to send for the entry. -/
def isUndone : PendingEntry → Bool
  | get _ => false
  | put _ => true
  | delete _ _ undoImage => !undoImage.isEmpty

theorem commitCall?_eq (entry : PendingEntry) :
    entry.commitCall? = entry.mutation?.map (·.call) := by
  cases entry <;> rfl

end PendingEntry

namespace PendingLog

def mutations (log : PendingLog) : List Mutation := log.filterMap (·.mutation?)

theorem mutations_append (first second : PendingLog) :
    mutations (first ++ second) = mutations first ++ mutations second :=
  List.filterMap_append ..

/-- When all entries of a log are undone, the newest first, the oldest one decides. -/
theorem applyAll_undo (contents : Contents) (log : PendingLog) (place : Place) :
    contents.applyAll (log.reverse.map (·.undo)) place =
      (log.findSome? (·.undo place)).getD (contents place) := by
  rw [Contents.applyAll_last, List.map_reverse, List.reverse_reverse, List.findSome?_map]
  rfl

end PendingLog

/-- How a write becomes an entry of the log: it is stamped, and a delete captures what its row holds
at that moment below the write pointer. -/
inductive Prepared (tx : Transaction) (maxVersions : Nat) (store : MemoryStore) :
    Mutation → PendingEntry → Prop
  | put {request stamped : Put} : request.cells ≠ [] → tx.stampPut request = .ok stamped →
    Prepared tx maxVersions store (.put request) (.put stamped)
  | delete {request stamped : Delete} {read : Get} :
    tx.preImageGet request.row maxVersions = .ok read → tx.stampDelete request = .ok stamped →
    Prepared tx maxVersions store (.delete request)
      (.delete stamped (tx.visiblePart (store.get read)) (store.get read))

theorem Put.cellAt?_eq_some {put : Put} {column : Column} {version : Version} {value : Bytes}
    (found : put.cellAt? column version = some value) : ⟨column, version, value⟩ ∈ put.cells := by
  obtain ⟨cell, first, rfl⟩ := Option.map_eq_some_iff.1 found
  have here := List.find?_some first
  obtain ⟨rfl, rfl⟩ : cell.column = column ∧ cell.version = version := by simpa using here
  exact List.mem_reverse.1 (List.mem_of_find?_eq_some first)

theorem Put.cellAt?_of_mem {put : Put} {cell : Cell} (mem : cell ∈ put.cells) :
    put.cellAt? cell.column cell.version ≠ none := by
  rw [Put.cellAt?, ne_eq, Option.map_eq_none_iff, List.find?_eq_none]
  intro absent
  simpa using absent cell (List.mem_reverse.2 mem)

namespace Mutation

theorem change_eq_value {mutation : Mutation} {place : Place} {value : Bytes}
    (written : mutation.change place = some (some value)) : ∃ write, mutation = .put write ∧
      place.row = write.row ∧ ⟨place.column, place.version, value⟩ ∈ write.cells := by
  cases mutation with
  | put write =>
    by_cases same : place.row = write.row
    · rw [change, if_pos same] at written
      obtain ⟨found, here, eq⟩ := Option.map_eq_some_iff.1 written
      cases eq
      exact ⟨write, rfl, same, Put.cellAt?_eq_some here⟩
    · simp [change, same] at written
  | delete removal =>
    rw [change] at written
    split at written <;> cases written

theorem change_put_of_mem (write : Put) {cell : Cell} (mem : cell ∈ write.cells) :
    (Mutation.put write).change ⟨write.row, cell.column, cell.version⟩ ≠ none := by
  have found := Put.cellAt?_of_mem mem
  simpa [change] using found

end Mutation

/-- The value that the undo image of a delete holds for a place. -/
def PendingEntry.captured? : PendingEntry → Place → Option Bytes
  | .delete _ _ undoImage, place =>
    if place.row = undoImage.row then
      Put.cellAt? { row := undoImage.row, cells := undoImage.cells } place.column place.version
    else none
  | _, _ => none

def PendingLog.captured? (log : PendingLog) (place : Place) : Option Bytes :=
  log.findSome? (·.captured? place)

def PendingEntry.captures : PendingEntry → List Place
  | .delete _ _ undoImage =>
    undoImage.cells.map fun cell => ⟨undoImage.row, cell.column, cell.version⟩
  | _ => []

theorem PendingEntry.mem_captures_iff (entry : PendingEntry) (place : Place) :
    place ∈ entry.captures ↔ entry.captured? place ≠ none := by
  cases entry with
  | get request => simp [captures, captured?]
  | put request => simp [captures, captured?]
  | delete request preImage undoImage =>
    simp only [captures, captured?, List.mem_map]
    constructor
    · rintro ⟨cell, mem, rfl⟩
      rw [if_pos rfl]
      exact Put.cellAt?_of_mem mem
    · intro present
      split at present
      · rename_i row
        obtain ⟨value, found⟩ := Option.ne_none_iff_exists'.1 present
        exact ⟨_, Put.cellAt?_eq_some found, by rw [← row]⟩
      · exact absurd rfl present

theorem PendingEntry.captured?_eq (entry : PendingEntry) (place : Place) :
    entry.captured? place = (entry.undo place).join := by
  cases entry with
  | get request => rfl
  | put request =>
    simp only [captured?, undo, Mutation.change]
    split <;> rfl
  | delete request preImage undoImage =>
    simp only [captured?, undo, Mutation.change]
    split
    · cases Put.cellAt? { row := undoImage.row, cells := undoImage.cells } place.column
        place.version <;> rfl
    · rfl

theorem PendingLog.undo_eq_captured {log : PendingLog} {place : Place}
    (keeps : ∀ entry ∈ log, entry.undo place ≠ some none) :
    log.findSome? (·.undo place) = (log.captured? place).map some := by
  unfold captured?
  induction log with
  | nil => rfl
  | cons entry rest ih =>
    have later := ih fun other mem => keeps other (List.mem_cons_of_mem _ mem)
    have here := keeps entry (List.mem_cons_self ..)
    rw [List.findSome?_cons, List.findSome?_cons, entry.captured?_eq]
    cases undone : entry.undo place with
    | none => exact later
    | some written =>
      cases written with
      | none => exact absurd undone here
      | some value => rfl

namespace PendingEntry

/-- No cell that the entry writes, or writes back, leaves its version to the store. -/
def Explicit : PendingEntry → Prop
  | get _ => True
  | put request => (Mutation.put request).Explicit
  | delete _ _ undoImage => ∀ cell ∈ undoImage.cells, cell.version ≠ .latest

theorem Explicit.mutation {entry : PendingEntry} {mutation : Mutation} (explicit : entry.Explicit)
    (made : entry.mutation? = some mutation) : mutation.Explicit := by
  cases entry with
  | get request => cases made
  | put request =>
    cases made
    exact explicit
  | delete request preImage undoImage =>
    cases made
    exact trivial

theorem undoCall?_ok {tx : Transaction} {entry : PendingEntry} {call? : Option StoreCall}
    (explicit : entry.Explicit) (done : entry.undoCall? tx = .ok call?) :
    (call? = none ∧ ∀ place, entry.undo place = none) ∨
      ∃ mutation : Mutation, call? = some mutation.call ∧ mutation.change = entry.undo ∧
        mutation.Explicit := by
  cases entry with
  | get request =>
    cases done
    exact .inl ⟨rfl, fun _ => rfl⟩
  | put request =>
    cases made : tx.undoPut request with
    | error error =>
      simp [undoCall?, made, bind, Except.bind] at done
    | ok undo =>
      obtain ⟨row, timestamp, scopes⟩ := Transaction.undoPut_ok made
      have same : call? = some (.delete undo) := by
        simpa [undoCall?, made, bind, Except.bind, pure, Except.pure, eq_comm] using done
      refine .inr ⟨.delete undo, same, ?_, trivial⟩
      funext place
      simp only [PendingEntry.undo, Mutation.change, Delete.covers, row, timestamp, scopes]
  | delete request preImage undoImage =>
    cases made : tx.undoDelete undoImage with
    | error error =>
      simp [undoCall?, made, bind, Except.bind] at done
    | ok put? =>
      have same : call? = put?.map .put := by
        simpa [undoCall?, made, bind, Except.bind, pure, Except.pure, eq_comm] using done
      cases put? with
      | none =>
        refine .inl ⟨same, fun place => ?_⟩
        simp [undo, Mutation.change, Put.cellAt?, Transaction.undoDelete_none made]
      | some write =>
        obtain ⟨row, cells⟩ := Transaction.undoDelete_ok made
        refine .inr ⟨.put write, same, ?_, ?_⟩
        · funext place
          simp only [undo, Mutation.change, Put.cellAt?, row, cells]
        · intro cell mem
          exact explicit cell (cells ▸ mem)

theorem change_of_undoCall? {tx : Transaction} {entry : PendingEntry} {mutation : Mutation}
    (explicit : entry.Explicit) (call : entry.undoCall? tx = .ok (some mutation.call)) :
    mutation.change = entry.undo ∧ mutation.Explicit := by
  rcases undoCall?_ok explicit call with ⟨nothing, _⟩ | ⟨other, same, change, ordinary⟩
  · cases nothing
  · rw [Mutation.call_injective (Option.some.inj same)]
    exact ⟨change, ordinary⟩

theorem undoCall?_of_valid {tx : Transaction} (valid : tx.validate = .ok ())
    (entry : PendingEntry) :
    (entry.isUndone = false ∧ entry.undoCall? tx = .ok none ∧ ∀ place, entry.undo place = none) ∨
      (entry.isUndone ∧ ∃ mutation : Mutation, entry.undoCall? tx = .ok (some mutation.call) ∧
        mutation.HasCells) := by
  cases entry with
  | get request => exact .inl ⟨rfl, rfl, fun _ => rfl⟩
  | put request =>
    obtain ⟨undo, made⟩ : ∃ undo, tx.undoPut request = .ok undo :=
      ⟨_, Descriptor.attach_of_valid valid _⟩
    refine .inr ⟨rfl, .delete undo, ?_, trivial⟩
    simp only [undoCall?, made]
    rfl
  | delete request preImage undoImage =>
    by_cases empty : undoImage.isEmpty
    · refine .inl ⟨by simp [isUndone, empty], ?_, fun place => ?_⟩
      · simp only [undoCall?, Transaction.undoDelete, empty, if_true]
        rfl
      · have nothing : undoImage.cells = [] := List.isEmpty_iff.1 empty
        simp [undo, Mutation.change, Put.cellAt?, nothing]
    · obtain ⟨undo, made⟩ : ∃ undo, tx.undoDelete undoImage = .ok (some undo) := by
        rw [Transaction.undoDelete, if_neg empty, Descriptor.attach_of_valid valid]
        exact ⟨_, rfl⟩
      have nonempty : undo.cells ≠ [] := by
        rw [(Transaction.undoDelete_ok made).2]
        simpa [RowResult.isEmpty] using empty
      refine .inr ⟨by simpa [isUndone] using empty, .put undo, ?_, nonempty⟩
      simp only [undoCall?, made]
      rfl

end PendingEntry

namespace Prepared

variable {tx : Transaction} {maxVersions : Nat} {store : MemoryStore} {mutation : Mutation}
  {entry : PendingEntry}

theorem mutation_eq (prepared : Prepared tx maxVersions store mutation entry) :
    ∃ made, entry.mutation? = some made ∧ made.change = mutation.changeAt tx.writePointer := by
  cases prepared with
  | put _ stamped => exact ⟨_, rfl, Transaction.change_stampPut stamped⟩
  | delete _ stamped => exact ⟨_, rfl, Transaction.change_stampDelete stamped⟩

theorem explicit (prepared : Prepared tx maxVersions store mutation entry)
    (ordinary : tx.writePointer ≠ .latest) : entry.Explicit := by
  cases prepared with
  | put _ stamped =>
    intro cell mem
    rw [(Transaction.stampPut_ok stamped).2] at mem
    obtain ⟨given, _, rfl⟩ := List.mem_map.1 mem
    exact ordinary
  | delete read _ =>
    intro cell mem latest
    have seen := (MemoryStore.contents_of_mem_get mem).2.2
    simp only [Filter.admitsVersion, (Transaction.preImageGet_ok read).2, Option.all_some,
      Bool.and_eq_true, decide_eq_true_eq] at seen
    have below : Version.latest.toNat ≤ tx.writePointer.toNat :=
      Nat.le_trans (Version.le_iff.1 (latest ▸ seen.1)) (Version.le_iff.1 (Version.previous_le _))
    exact ordinary (Version.ext_toNat (Nat.le_antisymm (Version.toNat_le _) below))

theorem hasCells (prepared : Prepared tx maxVersions store mutation entry) {made : Mutation}
    (same : entry.mutation? = some made) : made.HasCells := by
  cases prepared with
  | put nonempty stamped =>
    cases same
    simpa [Mutation.HasCells, (Transaction.stampPut_ok stamped).2] using nonempty
  | delete =>
    cases same
    exact trivial

theorem version_of_value (prepared : Prepared tx maxVersions store mutation entry) {made : Mutation}
    (same : entry.mutation? = some made) {place : Place} {value : Bytes}
    (written : made.change place = some (some value)) : place.version = tx.writePointer := by
  obtain ⟨other, sends, asked⟩ := prepared.mutation_eq
  obtain rfl : made = other := Option.some.inj (same.symm.trans sends)
  rw [asked] at written
  exact Mutation.version_of_changeAt written

theorem undo_of_value (prepared : Prepared tx maxVersions store mutation entry) {made : Mutation}
    (same : entry.mutation? = some made) {place : Place} {value : Bytes}
    (written : made.change place = some (some value)) : entry.undo place = some none := by
  obtain ⟨write, rfl, row, mem⟩ := Mutation.change_eq_value written
  cases prepared with
  | delete => cases same
  | put nonempty stamped =>
    cases same
    have covered : ∃ cell ∈ write.cells,
        cell.column = place.column ∧ cell.version = place.version := ⟨_, mem, rfl, rfl⟩
    simp [PendingEntry.undo, Mutation.change, Delete.covers, row, List.ne_nil_of_mem mem, covered]

theorem undo_eq_value (prepared : Prepared tx maxVersions store mutation entry) {place : Place}
    {value : Bytes} (restored : entry.undo place = some (some value)) :
    store.contents place = some value := by
  cases prepared with
  | put =>
    rw [PendingEntry.undo] at restored
    obtain ⟨_, shape, _⟩ := Mutation.change_eq_value restored
    cases shape
  | @delete request stamped read =>
    rw [PendingEntry.undo] at restored
    obtain ⟨write, shape, row, mem⟩ := Mutation.change_eq_value restored
    cases shape
    have sameRow : place.row = read.row := row.trans (store.row_get read)
    have here : place = ⟨read.row, place.column, place.version⟩ := by rw [← sameRow]
    rw [here]
    exact (MemoryStore.contents_of_mem_get mem).1

theorem le_previous_of_undo (prepared : Prepared tx maxVersions store mutation entry)
    {place : Place} {value : Bytes} (restored : entry.undo place = some (some value)) :
    place.version ≤ tx.writePointer.previous := by
  cases prepared with
  | put =>
    rw [PendingEntry.undo] at restored
    obtain ⟨_, shape, _⟩ := Mutation.change_eq_value restored
    cases shape
  | @delete request stamped read captured =>
    rw [PendingEntry.undo] at restored
    obtain ⟨write, shape, _, mem⟩ := Mutation.change_eq_value restored
    cases shape
    have seen := (MemoryStore.contents_of_mem_get mem).2.2
    rw [Filter.admitsVersion, (Transaction.preImageGet_ok captured).2] at seen
    simp only [Option.all_some, Bool.and_eq_true, decide_eq_true_eq] at seen
    exact seen.1

theorem undo_eq_none (prepared : Prepared tx maxVersions store mutation entry) {place : Place}
    (removed : entry.undo place = some none) : place.version = tx.writePointer := by
  cases prepared with
  | delete =>
    simp only [PendingEntry.undo, Mutation.change] at removed
    split at removed <;> simp at removed
  | put nonempty stamped =>
    obtain ⟨_, cells⟩ := Transaction.stampPut_ok stamped
    simp only [PendingEntry.undo, Mutation.change, Delete.covers, cells] at removed
    by_contra other
    have atPointer : ¬tx.writePointer = place.version := fun same => other same.symm
    simp [nonempty, atPointer] at removed

/-- A value that the entry can remove is written back by its undoing, unless the write pointer holds
it or too many newer ones kept it from being captured. -/
theorem undo_of_removal (prepared : Prepared tx maxVersions store mutation entry) {made : Mutation}
    (same : entry.mutation? = some made) {place : Place} {value : Bytes}
    (touched : made.change place ≠ none) (stored : store.contents place = some value)
    (other : place.version ≠ tx.writePointer)
    (few : store.contents.FewAbove (fun version => decide (version ≤ tx.writePointer.previous))
      place maxVersions) : entry.undo place ≠ none := by
  cases prepared with
  | put nonempty stamped =>
    cases same
    rw [Transaction.change_stampPut stamped] at touched
    simp [Mutation.changeAt, other] at touched
  | @delete request stamped read captured stamp =>
    cases same
    obtain ⟨readRow, readFilter⟩ := Transaction.preImageGet_ok captured
    rw [Transaction.change_stampDelete stamp, Mutation.changeAt] at touched
    obtain ⟨row, below, _⟩ : place.row = request.row ∧ place.version ≤ tx.writePointer ∧
        request.names place.column := by
      by_contra absent
      exact touched (if_neg absent)
    have admits : read.filter.admitsVersion =
        fun version => decide (version ≤ tx.writePointer.previous) := by
      funext version
      simp [Filter.admitsVersion, readFilter, SortedMap.contains]
    have seen := Version.le_previous_of_lt (Version.lt_of_le_of_ne below other)
    have here : place = ⟨read.row, place.column, place.version⟩ := by rw [readRow, ← row]
    have mem : (⟨place.column, place.version, value⟩ : Cell) ∈ (store.get read).cells := by
      refine MemoryStore.mem_get_of_contents (by rwa [← here])
        (by simp [readFilter, Filter.admitsColumn]) (by simpa [admits] using seen) ?_
      rw [admits, ← here, readFilter]
      exact few
    rw [PendingEntry.undo, store.row_get, here]
    exact Mutation.change_put_of_mem { row := read.row, cells := (store.get read).cells } mem

end Prepared

end SnapshotTable
