import SnapshotTable.Proofs.Direct
import SnapshotTable.Proofs.Interleaving
import SnapshotTable.Proofs.Snapshot

/-!
What becomes of a snapshot while a transaction that it does not show goes its way. Puts are hidden by
their version. A delete is not: once it is committed, the cells that it covers are gone from every
snapshot, and they come back if the commit is followed by a rollback that had captured them.
-/

namespace SnapshotTable

set_option autoImplicit false

/-- A delete of the log covers the place. -/
def PendingLog.removes (log : PendingLog) (place : Place) : Bool :=
  log.mutations.any fun made => made.change place == some none

/-- Of what a transaction can see, a store holds nothing but what was there at the start. -/
def Transaction.SeesOnly (tx : Transaction) (start : Contents) (store : MemoryStore) : Prop :=
  ∀ place value, tx.sees place.version → store.contents place = some value →
    start place = some value

namespace Turn

/-- The missing places after a turn of two tables. A commit of the second table adds what its log
removes, and a rollback takes out what its log had captured. -/
def missing (sharing : Sharing) (missing : Place → Bool) : Turn → Place → Bool
  | second .commit, place => missing place || sharing.second.log.removes place
  | second .rollback, place => missing place && (sharing.second.log.captured? place).isNone
  | _, place => missing place

variable {sharing : Sharing} {gone : Place → Bool}

theorem missing_of_other {call : TableCall} (unsent : call ≠ .commit) (kept : call ≠ .rollback) :
    missing sharing gone (.second call) = gone := by
  funext place
  cases call <;> first | rfl | contradiction

theorem missing_of_unbound (unbound : sharing.second.binding = none) (turn : Turn) :
    missing sharing gone turn = gone := by
  have empty : sharing.second.log = [] := by simp [Table.log, unbound]
  funext place
  unfold missing
  split
  · simp [empty, PendingLog.removes, PendingLog.mutations]
  · simp [empty, PendingLog.captured?]
  · rfl

end Turn

namespace Sharing

def missingAfter (sharing : Sharing) (missing : Place → Bool) : List Turn → Place → Bool
  | [] => missing
  | turn :: rest => (turn.run sharing).missingAfter (turn.missing sharing missing) rest

def missing (sharing : Sharing) (turns : List Turn) : Place → Bool :=
  sharing.missingAfter (fun _ => false) turns

theorem missingAfter_append (sharing : Sharing) (missing : Place → Bool)
    (before between : List Turn) :
    sharing.missingAfter missing (before ++ between) =
      (sharing.run before).missingAfter (sharing.missingAfter missing before) between := by
  induction before generalizing sharing missing with
  | nil => rfl
  | cons turn rest ih => exact ih _ _

/-- The first transaction runs over an open store in which it sees what was there at the start, but
for the missing places; and what the second one's log can bring back was there at the start. -/
structure Beside (tx other : Transaction) (start : Contents) (missing : Place → Bool)
    (sharing : Sharing) : Prop where
  first : ∃ log, sharing.first.binding = some ⟨tx, log⟩
  second : ∀ binding, sharing.second.binding = some binding → binding.tx = other ∧
    ∀ entry ∈ binding.log, entry.Made other (tx.SeesOnly start)
  seen : ∀ place : Place, tx.sees place.version →
    sharing.store.contents place = if missing place then none else start place
  unbuffered : sharing.store.Unbuffered
  opened : sharing.store.closed = false

namespace Beside

variable {tx other : Transaction} {start : Contents} {missing : Place → Bool} {sharing : Sharing}

theorem seesOnly (beside : sharing.Beside tx other start missing) :
    tx.SeesOnly start sharing.store := by
  intro place value seen found
  rw [beside.seen place seen] at found
  split at found
  · cases found
  · exact found

theorem first_turn (beside : sharing.Beside tx other start missing) {call : TableCall}
    (inside : call.isInside) (unsent : call ≠ .commit) :
    (Turn.run sharing (.first call)).Beside tx other start missing := by
  obtain ⟨log, bound⟩ := beside.first
  rcases Table.inside_of_bound bound inside beside.seesOnly with commits | ⟨kept, entries, same, _⟩
  · exact absurd commits unsent
  · have stays : (Turn.run sharing (.first call)).store = sharing.store := kept
    exact ⟨⟨_, same⟩, beside.second, stays ▸ beside.seen, stays ▸ beside.unbuffered,
      stays ▸ beside.opened⟩

theorem of_commit (beside : sharing.Beside tx other start missing)
    (hidden : tx.sees other.writePointer = false) (valid : other.validate = .ok ())
    {log : PendingLog} (bound : sharing.second.binding = some ⟨other, log⟩) :
    (Turn.run sharing (.second .commit)).Beside tx other start
      (Turn.missing sharing missing (.second .commit)) := by
  have made := (beside.second _ bound).2
  have listed : sharing.second.log = log := by simp [Table.log, bound]
  obtain ⟨_, contents, unbuffered, opened⟩ :=
    Table.commit_of_open bound valid made beside.unbuffered beside.opened
  refine ⟨beside.first, beside.second, fun place seen => ?_, unbuffered, opened⟩
  have valueless : ∀ change ∈ log.mutations.map (·.change), ∀ value,
      change place ≠ some (some value) := by
    intro change mem value wrote
    obtain ⟨mutation, member, rfl⟩ := List.mem_map.1 mem
    obtain ⟨entry, inLog, sends⟩ := List.mem_filterMap.1 member
    have here := (made entry inLog).version_of_value sends wrote
    rw [here, hidden] at seen
    cases seen
  have removed : (log.mutations.map (·.change)).any (fun change => change place == some none) =
      log.removes place := by
    rw [List.any_map]
    rfl
  change (sharing.second.commit sharing.store).2.contents place = _
  rw [contents, Contents.applyAll_of_no_value _ valueless, removed, beside.seen place seen,
    Turn.missing, listed]
  cases log.removes place <;> cases missing place <;> rfl

theorem of_rollback (beside : sharing.Beside tx other start missing)
    (hidden : tx.sees other.writePointer = false) (valid : other.validate = .ok ())
    {log : PendingLog} (bound : sharing.second.binding = some ⟨other, log⟩) :
    (Turn.run sharing (.second .rollback)).Beside tx other start
      (Turn.missing sharing missing (.second .rollback)) := by
  have made := (beside.second _ bound).2
  have listed : sharing.second.log = log := by simp [Table.log, bound]
  have explicit : ∀ entry ∈ log, entry.Explicit := fun entry mem =>
    (made entry mem).explicit (Transaction.validate_eq_ok_iff.1 valid).1
  obtain ⟨_, unbound, contents, unbuffered, opened⟩ :=
    Table.rollback_of_open bound valid explicit beside.unbuffered beside.opened
  refine ⟨beside.first, fun binding still => ?_, fun place seen => ?_, unbuffered, opened⟩
  · have nothing : (Turn.run sharing (.second .rollback)).second.binding = none :=
      congrArg Table.binding unbound
    cases nothing.symm.trans still
  have keeps : ∀ entry ∈ log, entry.undo place ≠ some none := by
    intro entry mem removed
    have here := (made entry mem).version_of_undo_none removed
    rw [here, hidden] at seen
    cases seen
  change (sharing.second.rollback sharing.store).2.2.contents place = _
  rw [contents, PendingLog.undo_eq_captured keeps, beside.seen place seen, Turn.missing, listed]
  cases captured : log.captured? place with
  | none => simp
  | some value =>
    obtain ⟨entry, mem, found⟩ := List.exists_of_findSome?_eq_some captured
    rw [entry.captured?_eq, Option.join_eq_some_iff] at found
    obtain ⟨store, only, stood⟩ := (made entry mem).seen_of_undo found
    simp [only place value seen stood]

theorem second_turn (beside : sharing.Beside tx other start missing)
    (hidden : tx.sees other.writePointer = false) (valid : other.validate = .ok ())
    {call : TableCall} (allowed : call.isInside ∨ call = .rollback ∨ call = .postCommit) :
    (Turn.run sharing (.second call)).Beside tx other start
      (Turn.missing sharing missing (.second call)) := by
  cases bound : sharing.second.binding with
  | none =>
    obtain ⟨unbound, kept⟩ := Table.perform_of_unbound bound allowed sharing.store
    have stays : (Turn.run sharing (.second call)).store = sharing.store := kept
    rw [Turn.missing_of_unbound bound]
    refine ⟨beside.first, fun binding still => ?_, stays ▸ beside.seen, stays ▸ beside.unbuffered,
      stays ▸ beside.opened⟩
    cases unbound.symm.trans still
  | some binding =>
    obtain ⟨own, log⟩ := binding
    obtain ⟨same, made⟩ := beside.second _ bound
    change own = other at same
    subst same
    rcases allowed with inside | rfl | rfl
    · rcases Table.inside_of_bound bound inside beside.seesOnly with
        rfl | ⟨kept, entries, same, more⟩
      · exact beside.of_commit hidden valid bound
      · by_cases commits : call = .commit
        · subst commits
          exact beside.of_commit hidden valid bound
        have stays : (Turn.run sharing (.second call)).store = sharing.store := kept
        rw [Turn.missing_of_other commits (by rintro rfl; cases inside)]
        refine ⟨beside.first, fun binding still => ?_, stays ▸ beside.seen,
          stays ▸ beside.unbuffered, stays ▸ beside.opened⟩
        cases same.symm.trans still
        refine ⟨rfl, fun entry mem => ?_⟩
        rcases List.mem_append.1 mem with mem | mem
        · exact made entry mem
        · exact more entry mem
    · exact beside.of_rollback hidden valid bound
    · rw [Turn.missing_of_other (by decide) (by decide)]
      exact ⟨beside.first, fun _ still => (by cases still), beside.seen, beside.unbuffered,
        beside.opened⟩

theorem run (beside : sharing.Beside tx other start missing)
    (hidden : tx.sees other.writePointer = false) (valid : other.validate = .ok ())
    {turns : List Turn} (allowed : ∀ turn ∈ turns, turn.isAllowed) :
    (sharing.run turns).Beside tx other start (sharing.missingAfter missing turns) := by
  induction turns generalizing sharing missing with
  | nil => exact beside
  | cons turn rest ih =>
    have here := allowed turn (List.mem_cons_self ..)
    refine ih ?_ fun later mem => allowed later (List.mem_cons_of_mem _ mem)
    cases turn with
    | first call =>
      obtain ⟨inside, unsent⟩ : call.isInside ∧ call ≠ .commit := by
        simpa [Turn.isAllowed] using here
      exact beside.first_turn inside unsent
    | second call =>
      apply beside.second_turn hidden valid
      simpa [Turn.isAllowed, or_assoc] using here

theorem of_bind {first second firstBound secondBound : Table} {store : MemoryStore}
    (binds : first.bind tx = (.ok (), firstBound))
    (otherBinds : second.bind other = (.ok (), secondBound)) (unbuffered : store.Unbuffered)
    (opened : store.closed = false) :
    (Sharing.mk firstBound secondBound store).Beside tx other store.contents (fun _ => false) where
  first := ⟨[], (Underway.of_bind binds store).2.bound⟩
  second := by
    intro binding bound
    have empty := (Underway.of_bind otherBinds store).2.bound
    cases empty.symm.trans bound
    exact ⟨rfl, by simp⟩
  seen := fun _ _ => rfl
  unbuffered := unbuffered
  opened := opened

theorem mem_probe_iff (beside : sharing.Beside tx other start missing) {place : Place}
    (seen : tx.sees place.version) {value : Bytes} (stood : start place = some value) :
    ⟨place.column, place.version, value⟩ ∈ (sharing.store.get {
      row := place.probe.row
      filter := tx.restrict place.probe.filter }).cells ↔ missing place = false := by
  rw [sharing.store.mem_probe_iff seen, beside.seen place seen, stood]
  cases missing place <;> simp

theorem missing_eq {next : Sharing} {latter : Place → Bool}
    (beside : sharing.Beside tx other start missing) (later : next.Beside tx other start latter)
    (valid : tx.validate = .ok ()) {place : Place} (seen : tx.sees place.version) {value : Bytes}
    (stood : start place = some value) (agree : (sharing.first.get place.probe sharing.store).1 =
      (next.first.get place.probe next.store).1) : missing place = latter place := by
  obtain ⟨log, bound⟩ := beside.first
  obtain ⟨longer, laterBound⟩ := later.first
  rw [Table.get_of_open bound valid beside.opened,
    Table.get_of_open laterBound valid later.opened] at agree
  have viewed := beside.mem_probe_iff seen stood
  rw [Except.ok.inj agree] at viewed
  have both := viewed.symm.trans (later.mem_probe_iff seen stood)
  revert both
  cases missing place <;> cases latter place <;> decide

end Beside

theorem closed_run {tx : Transaction} {sharing : Sharing}
    (bound : ∃ log, sharing.first.binding = some ⟨tx, log⟩) (closed : sharing.store.closed)
    {turns : List Turn} (allowed : ∀ turn ∈ turns, turn.isAllowed) :
    (∃ log, (sharing.run turns).first.binding = some ⟨tx, log⟩) ∧
      (sharing.run turns).store.closed := by
  induction turns generalizing sharing with
  | nil => exact ⟨bound, closed⟩
  | cons turn rest ih =>
    have here := allowed turn (List.mem_cons_self ..)
    have later := fun other mem => allowed other (List.mem_cons_of_mem turn mem)
    cases turn with
    | first call =>
      obtain ⟨log, bound⟩ := bound
      obtain ⟨inside, _⟩ : call.isInside ∧ call ≠ .commit := by simpa [Turn.isAllowed] using here
      refine ih ?_ (Table.closed_of_perform closed (.inl inside)) later
      exact Table.bound_of_inside bound inside sharing.store
    | second call =>
      have known : call.isInside ∨ call = .rollback ∨ call = .postCommit := by
        simpa [Turn.isAllowed, or_assoc] using here
      exact ih bound (Table.closed_of_perform closed known) later

/-- If a cell stood at the place at the start, it is missing after all the turns exactly if it was
missing after the first ones. -/
def Keeps (sharing : Sharing) (before between : List Turn) (place : Place) : Prop :=
  sharing.store.contents place ≠ none →
    sharing.missing before place = sharing.missing (before ++ between) place

/-- Two reads of the first transaction return the same, whatever the second one does around and
between them, if the first one does not show its write pointer and no cell that the read can show
goes missing or comes back in between. Any cell that does changes some read. -/
theorem snapshot_stable_but_for_deletes {first second firstBound secondBound : Table}
    {tx other : Transaction} {store : MemoryStore} {before between : List Turn}
    (binds : first.bind tx = (.ok (), firstBound))
    (otherBinds : second.bind other = (.ok (), secondBound))
    (hidden : tx.sees other.writePointer = false) (unbuffered : store.Unbuffered)
    (allowed : ∀ turn ∈ before ++ between, turn.isAllowed) :
    let shared : Sharing := ⟨firstBound, secondBound, store⟩
    let former := shared.run before
    let latter := former.run between
    (∀ request : Get,
      (∀ place : Place, place.row = request.row → request.filter.admitsColumn place.column →
        tx.shows request.filter place.version → shared.Keeps before between place) →
      (former.first.get request former.store).1 = (latter.first.get request latter.store).1) ∧
    (∀ request : Scan,
      (∀ place : Place, request.containsRow place.row →
        request.filter.admitsColumn place.column → tx.shows request.filter place.version →
          shared.Keeps before between place) →
      (former.first.scan request former.store).1 = (latter.first.scan request latter.store).1) ∧
    ∀ place : Place, store.closed = false → tx.sees place.version →
      ¬shared.Keeps before between place →
        ∃ request : Get,
          (former.first.get request former.store).1 ≠ (latter.first.get request latter.store).1 := by
  intro shared former latter
  obtain ⟨valid, _⟩ := Underway.of_bind binds store
  obtain ⟨otherValid, _⟩ := Underway.of_bind otherBinds store
  have early : ∀ turn ∈ before, turn.isAllowed := fun turn mem =>
    allowed turn (List.mem_append_left _ mem)
  have late : ∀ turn ∈ between, turn.isAllowed := fun turn mem =>
    allowed turn (List.mem_append_right _ mem)
  cases closed : store.closed with
  | true =>
    have bound : ∃ log, shared.first.binding = some ⟨tx, log⟩ :=
      ⟨[], (Underway.of_bind binds store).2.bound⟩
    have middle := closed_run bound closed early
    have final := closed_run middle.1 middle.2 late
    obtain ⟨⟨log, formerBound⟩, formerClosed⟩ := middle
    obtain ⟨⟨longer, latterBound⟩, latterClosed⟩ := final
    refine ⟨fun request _ => ?_, fun request _ => ?_, fun place opened => by cases opened⟩
    · exact (Table.get_of_closed formerBound valid formerClosed request).trans
        (Table.get_of_closed latterBound valid latterClosed request).symm
    · exact (Table.scan_of_closed formerBound valid formerClosed request).trans
        (Table.scan_of_closed latterBound valid latterClosed request).symm
  | false =>
    have middle : former.Beside tx other store.contents (shared.missing before) :=
      (Beside.of_bind binds otherBinds unbuffered closed).run hidden otherValid early
    have final : latter.Beside tx other store.contents (shared.missing (before ++ between)) := by
      rw [missing, missingAfter_append]
      exact middle.run hidden otherValid late
    obtain ⟨log, formerBound⟩ := middle.first
    obtain ⟨longer, latterBound⟩ := final.first
    have same : ∀ place : Place, tx.sees place.version → shared.Keeps before between place →
        former.store.contents place = latter.store.contents place := by
      intro place seen keeps
      rw [middle.seen place seen, final.seen place seen]
      cases stood : store.contents place with
      | none => simp
      | some value => rw [keeps (by simp [shared, stood])]
    refine ⟨fun request keeps => ?_, fun request keeps => ?_, fun place _ seen moved => ?_⟩
    · exact Table.get_congr formerBound latterBound valid middle.opened final.opened
        fun place row admitted shown =>
          same place (tx.sees_of_shows shown) (keeps place row admitted shown)
    · exact Table.scan_congr formerBound latterBound valid middle.opened final.opened
        fun place inside admitted shown =>
          same place (tx.sees_of_shows shown) (keeps place inside admitted shown)
    · obtain ⟨present, differs⟩ := Classical.not_imp.1 moved
      obtain ⟨value, stood⟩ := Option.ne_none_iff_exists'.1 present
      exact ⟨place.probe, fun agree => differs (middle.missing_eq final valid seen stood agree)⟩

/-- The second transaction deletes a row and commits. The first one does not see the second one's
writes, but the cell that it could read before is gone. -/
theorem committed_delete_reaches_snapshot :
    let store := Sample.store [{ row := "r", version := 1, value := [1] }]
    let tx := Transaction.new ⟨1⟩ ⟨2⟩ []
    let other := Transaction.new ⟨1⟩ ⟨3⟩ []
    let shared : Sharing := ⟨(({} : Table).bind tx).2, (({} : Table).bind other).2, store⟩
    let between : List Turn :=
      [.second (Sample.RowWrite.deleteRow "r").call, .second .commit, .second .postCommit]
    let latter := shared.run between
    let request : Get := { row := Bytes.ofText "r" }
    tx.sees other.writePointer = false ∧ (∀ turn ∈ between, turn.isAllowed) ∧
      (shared.first.get request shared.store).1.toOption.map (·.cells) =
        some [⟨Sample.column, ⟨1⟩, [1]⟩] ∧
      (latter.first.get request latter.store).1.toOption.map (·.cells) = some [] := by
  decide +kernel

/-- A commit that is taken back by a rollback does not show, nor does a put beside it. -/
theorem snapshot_stable_past_rollback :
    let store := Sample.store [{ row := "r", version := 1, value := [1] }]
    let tx := Transaction.new ⟨1⟩ ⟨2⟩ []
    let other := Transaction.new ⟨1⟩ ⟨3⟩ []
    let shared : Sharing := ⟨(({} : Table).bind tx).2, (({} : Table).bind other).2, store⟩
    let between : List Turn := [.second (Sample.RowWrite.put "r" "c" [2]).call,
      .second (Sample.RowWrite.deleteRow "r").call, .second .commit, .second .rollback]
    let latter := shared.run between
    (shared.missing (between.take 3) ⟨Bytes.ofText "r", Sample.column, ⟨1⟩⟩) ∧
      ∀ request : Get,
        (shared.first.get request shared.store).1 = (latter.first.get request latter.store).1 := by
  intro store tx other shared between latter
  have binds : ({} : Table).bind tx = (.ok (), (({} : Table).bind tx).2) := by decide
  have otherBinds : ({} : Table).bind other = (.ok (), (({} : Table).bind other).2) := by decide
  have unbuffered : store.Unbuffered := ⟨by decide +kernel, by decide +kernel⟩
  have back : ∀ held ∈ store.columns, ∀ entry ∈ held.2.2.entries,
      shared.missing between ⟨held.1, held.2.1, entry.1⟩ = false := by decide +kernel
  have allowed : ∀ turn ∈ [] ++ between, turn.isAllowed := by decide
  obtain ⟨stable, _⟩ :=
    snapshot_stable_but_for_deletes binds otherBinds (by decide) unbuffered allowed
  refine ⟨by decide +kernel, fun request => stable request fun place _ _ _ present => ?_⟩
  obtain ⟨value, stood⟩ := Option.ne_none_iff_exists'.1 present
  obtain ⟨versions, held, found⟩ := MemoryStore.mem_columns_of_contents stood
  exact (back _ held _ ((SortedMap.mem_entries_iff ..).2 found)).symm

end Sharing

end SnapshotTable
