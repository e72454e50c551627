import SnapshotTable.Proofs.Coordination
import SnapshotTable.Proofs.Newest
import SnapshotTable.Proofs.Run

/-!
Serial runs: a coordinator begins one transaction after another on one table. Between transactions
the newest values in the store are those of a map without versions, into which only the writes of
committed transactions went.
-/

namespace SnapshotTable

set_option autoImplicit false

inductive Ending where
  | commit
  | abort
deriving DecidableEq

/-- What is done in one transaction between begin and end, and how it ends. -/
structure Script where
  steps : List Step
  ending : Ending
deriving DecidableEq

/-- A coordinator, the table that it works with, and the map that the table is to show. -/
structure Serial where
  coordinator : Coordinator
  site : Site
  map : KeyValue

namespace Serial

def start (first : UInt64) (site : Site) : Serial where
  coordinator := .startingAt first
  site := site
  map := site.2.inner.newest?

def begin (serial : Serial) : Transaction × Coordinator × Site :=
  let (tx, coordinator) := serial.coordinator.begin
  let (_, site) := Participant.start tx serial.site
  (tx, coordinator, site)

/-- One transaction. Its writes go into the map if its commit succeeds, and else none of them. -/
def transact (serial : Serial) (script : Script) : Serial :=
  let (tx, coordinator, bound) := serial.begin
  let ended := bound.run script.steps
  match script.ending with
  | .commit =>
    match coordinator.commit tx ended with
    | (.ok (), site, coordinator) =>
      ⟨coordinator, site, serial.map.applyAll (bound.accepted script.steps)⟩
    | (.error _, site, coordinator) => ⟨coordinator, site, serial.map⟩
  | .abort =>
    let (_, site, coordinator) := coordinator.abort tx ended
    ⟨coordinator, site, serial.map⟩

/-- What the next transaction is answered if it begins with a read. -/
def nextGet (serial : Serial) (request : Get) : Except TableError RowResult :=
  let (_, _, table, store) := serial.begin
  (table.get request store).1

/-- The state between two transactions, if none has become invalid. -/
structure Ready (serial : Serial) : Prop where
  unbound : serial.site.1.binding = none
  room : 0 < serial.site.1.config.preImageMaxVersions
  finished : serial.coordinator.inProgress = .empty
  valid : serial.coordinator.invalid = .empty
  opened : serial.site.2.inner.closed = false
  unbuffered : serial.site.2.inner.Unbuffered
  below : serial.site.2.inner.contents.Below ⟨serial.coordinator.nextPointer⟩
  newest : ∀ row column,
    serial.site.2.inner.contents.Newest row column (serial.map row column)

variable {serial : Serial}

theorem Ready.begin_eq (ready : serial.Ready)
    (ordinary : serial.coordinator.nextPointer ≠ Version.latest.value) : ∃ tx bound,
      serial.begin = (tx, { serial.coordinator with
        nextPointer := serial.coordinator.nextPointer + 1
        inProgress := SortedSet.add .empty tx.writePointer }, bound, serial.site.2) ∧
      tx.writePointer = ⟨serial.coordinator.nextPointer⟩ ∧
      tx.readPointer = ⟨serial.coordinator.nextPointer - 1⟩ ∧ tx.excluded = .empty ∧
      serial.site.1.bind tx = (.ok (), bound) := by
  have begins := Coordinator.begin_of_none ready.finished ready.valid
  have valid : serial.coordinator.begin.1.validate = .ok () := by
    rw [begins]
    refine Transaction.validate_eq_ok_iff.2 ⟨fun latest => ?_, fun version mem => by cases mem⟩
    exact ordinary (congrArg Version.value latest)
  have binds := Table.bind_of_unbound ready.unbound valid
  rw [begins] at binds
  refine ⟨_, _, ?_, rfl, rfl, rfl, binds⟩
  simp only [begin, begins, Participant.start, binds]
  rfl

theorem Ready.next (ready : serial.Ready)
    (ordinary : serial.coordinator.nextPointer ≠ Version.latest.value) {next : Serial}
    (intake : ∃ taken, Intake serial.site.2.inner taken next.site.2.inner)
    (unbound : next.site.1.binding = none) (room : 0 < next.site.1.config.preImageMaxVersions)
    (finished : next.coordinator.inProgress = .empty) (valid : next.coordinator.invalid = .empty)
    (pointer : next.coordinator.nextPointer = serial.coordinator.nextPointer + 1)
    (upTo : next.site.2.inner.contents.UpTo ⟨serial.coordinator.nextPointer⟩)
    (newest : ∀ row column,
      next.site.2.inner.contents.Newest row column (next.map row column)) : next.Ready := by
  obtain ⟨taken, intake⟩ := intake
  have opened : next.site.2.inner.closed = false := intake.closed_eq.trans ready.opened
  have unbuffered := intake.unbuffered ready.unbuffered
  refine ⟨unbound, room, finished, valid, opened, unbuffered, fun place value here => ?_, newest⟩
  have le := Version.le_iff.1 (upTo place value here)
  have bound := serial.coordinator.nextPointer.toNat_lt
  have other : serial.coordinator.nextPointer.toNat ≠ 18446744073709551615 := fun same =>
    ordinary (UInt64.toNat_inj.1 same)
  rw [Version.lt_iff, pointer]
  simp only [Version.toNat, UInt64.toNat_add] at le ⊢
  simp
  omega

theorem Ready.of_commit (ready : serial.Ready)
    (ordinary : serial.coordinator.nextPointer ≠ Version.latest.value) {tx : Transaction}
    (pointer : tx.writePointer = ⟨serial.coordinator.nextPointer⟩) {table : Table}
    {store : FaultyStore MemoryStore} {log : PendingLog} {writes : List Mutation}
    (under : Underway serial.site.2.inner tx serial.site.1.config.preImageMaxVersions log writes
      table (memory store)) (succeeded : (table.commit store).1 = .ok ())
    {coordinator : Coordinator} (finished : coordinator.inProgress = .empty)
    (valid : coordinator.invalid = .empty)
    (next : coordinator.nextPointer = serial.coordinator.nextPointer + 1) :
    Ready ⟨coordinator, (table.unbind, (table.commit store).2), serial.map.applyAll writes⟩ := by
  have explicit : tx.writePointer ≠ .latest := fun same =>
    ordinary (congrArg Version.value (pointer.symm.trans same))
  obtain ⟨_, attempted⟩ := under.attempt
  obtain ⟨taken, intake, _⟩ := attempted.intake
  have contents : (table.commit store).2.inner.contents = serial.site.2.inner.contents.applyAll
      (writes.map (·.changeAt ⟨serial.coordinator.nextPointer⟩)) :=
    pointer ▸ under.commit_contents ready.unbuffered.empty explicit succeeded
  obtain ⟨upTo, newest⟩ := Contents.Newest.applyAll ready.below.upTo ready.newest writes
  rw [← contents] at upTo newest
  have room : 0 < table.config.preImageMaxVersions := under.config.symm ▸ ready.room
  exact ready.next ordinary ⟨taken, intake⟩ rfl room finished valid next upTo newest

theorem Ready.of_rollback (ready : serial.Ready)
    (ordinary : serial.coordinator.nextPointer ≠ Version.latest.value) {tx : Transaction}
    (pointer : tx.writePointer = ⟨serial.coordinator.nextPointer⟩) {table : Table}
    {store : FaultyStore MemoryStore} {log : PendingLog} {writes : List Mutation}
    (under : Underway serial.site.2.inner tx serial.site.1.config.preImageMaxVersions log writes
      table (memory store)) (clean : (table.rollback store).1 = .ok ())
    {coordinator : Coordinator} (finished : coordinator.inProgress = .empty)
    (valid : coordinator.invalid = .empty)
    (next : coordinator.nextPointer = serial.coordinator.nextPointer + 1) :
    Ready ⟨coordinator, (table.rollback store).2, serial.map⟩ := by
  have explicit : tx.writePointer ≠ .latest := fun same =>
    ordinary (congrArg Version.value (pointer.symm.trans same))
  have restores := under.rollback_restores ready.unbuffered.empty explicit clean
  have left : (table.rollback store).2.1 = table.unbind := by
    simp only [Table.rollback, under.bound]
  have upTo := ready.below.upTo
  refine ready.next ordinary (under.rollback_intake explicit) (by rw [left]; rfl) ?_ finished valid
    next ?_ fun row column => (ready.newest row column).of_subset ?_ ?_
  · rw [left]
    exact under.config.symm ▸ ready.room
  · exact fun place value found => upTo place value ((restores place value).1 found)
  · exact fun place value found => (restores place value).1 found
  · intro place value found newest
    refine (restores place value).2 found ?_ ?_
    · intro same
      have below := Version.lt_iff.1 (ready.below place value found)
      rw [same, pointer] at below
      omega
    · exact Contents.fewAbove_newest _ newest ready.room

theorem Ready.transact (ready : serial.Ready)
    (ordinary : serial.coordinator.nextPointer ≠ Version.latest.value) {script : Script}
    (inside : ∀ step ∈ script.steps, step.isInside)
    (valid : (serial.transact script).coordinator.invalid = .empty) :
    (serial.transact script).Ready ∧ (serial.transact script).coordinator.nextPointer =
      serial.coordinator.nextPointer + 1 := by
  obtain ⟨tx, bound, begins, pointer, _, _, binds⟩ := ready.begin_eq ordinary
  obtain ⟨sound, log, ended⟩ := Underway.of_run binds serial.site.2 inside
  have erased : SortedMap.erase (SortedSet.add .empty tx.writePointer) tx.writePointer =
      (SortedMap.empty : VersionSet) := by
    apply SortedMap.ext_find?
    intro key
    rw [SortedMap.find?_erase, SortedSet.add, SortedMap.find?_insert]
    split <;> rfl
  simp only [Serial.transact, begins] at valid ⊢
  cases ending : script.ending with
  | abort =>
    simp only [ending] at valid ⊢
    obtain ⟨clean, aborted⟩ := Coordinator.abort_valid valid
    rw [aborted]
    exact ⟨ready.of_rollback ordinary pointer ended clean erased ready.valid rfl, rfl⟩
  | commit =>
    simp only [ending] at valid ⊢
    rcases Coordinator.commit_cases ended.bound sound _ with
      ⟨done, committed⟩ | ⟨error, _, failed⟩
    · rw [committed]
      dsimp only
      exact ⟨ready.of_commit ordinary pointer ended done erased ready.valid rfl, rfl⟩
    · rw [failed] at valid ⊢
      obtain ⟨clean, aborted⟩ := Coordinator.abort_valid valid
      obtain ⟨_, attempted⟩ := ended.attempt
      rw [aborted]
      dsimp only
      exact ⟨ready.of_rollback ordinary pointer attempted clean erased ready.valid rfl, rfl⟩

theorem invalid_of_transact {script : Script}
    (valid : (serial.transact script).coordinator.invalid = .empty) :
    serial.coordinator.invalid = .empty := by
  simp only [Serial.transact] at valid
  cases ending : script.ending with
  | abort =>
    simp only [ending] at valid
    have aborted := Coordinator.abort_valid valid
    rw [aborted.2] at valid
    exact valid
  | commit =>
    simp only [ending] at valid
    have committed : (Coordinator.commit serial.begin.2.1 serial.begin.1
        (serial.begin.2.2.run script.steps)).2.2.invalid = .empty := by
      split at valid <;> (rename_i eq; rw [eq]; exact valid)
    have kept := Coordinator.invalid_of_commit committed
    exact kept

def run (serial : Serial) (scripts : List Script) : Serial := scripts.foldl transact serial

theorem invalid_of_run {scripts : List Script}
    (valid : (serial.run scripts).coordinator.invalid = .empty) :
    serial.coordinator.invalid = .empty := by
  induction scripts generalizing serial with
  | nil => exact valid
  | cons script rest ih => exact invalid_of_transact (ih valid)

/-- However many transactions run one after another, the store between them shows the map. -/
theorem Ready.run (ready : serial.Ready) {scripts : List Script}
    (inside : ∀ script ∈ scripts, ∀ step ∈ script.steps, step.isInside)
    (short : serial.coordinator.nextPointer.toNat + scripts.length ≤ Version.latest.toNat)
    (valid : (serial.run scripts).coordinator.invalid = .empty) :
    (serial.run scripts).Ready ∧ (serial.run scripts).coordinator.nextPointer.toNat =
      serial.coordinator.nextPointer.toNat + scripts.length := by
  induction scripts generalizing serial with
  | nil => exact ⟨ready, rfl⟩
  | cons script rest ih =>
    have bound : Version.latest.toNat = 18446744073709551615 := rfl
    rw [List.length_cons] at short
    have ordinary : serial.coordinator.nextPointer ≠ Version.latest.value := by
      intro same
      have value := congrArg UInt64.toNat same
      change _ = Version.latest.toNat at value
      omega
    obtain ⟨next, pointer⟩ := ready.transact ordinary (inside script (List.mem_cons_self ..))
      (invalid_of_run valid)
    have counted : (serial.transact script).coordinator.nextPointer.toNat =
        serial.coordinator.nextPointer.toNat + 1 := by
      rw [pointer, UInt64.toNat_add]
      simp
      omega
    obtain ⟨last, total⟩ := ih next (fun other mem => inside other (List.mem_cons_of_mem _ mem))
      (by omega) valid
    refine ⟨last, total.trans ?_⟩
    rw [List.length_cons]
    omega

theorem Ready.start {first : UInt64} {site : Site} (unbound : site.1.binding = none)
    (room : 0 < site.1.config.preImageMaxVersions) (opened : site.2.inner.closed = false)
    (unbuffered : site.2.inner.Unbuffered)
    (below : site.2.inner.contents.Below ⟨(Coordinator.startingAt first).nextPointer⟩) :
    (Serial.start first site).Ready :=
  ⟨unbound, room, rfl, rfl, opened, unbuffered, below, site.2.inner.newest_newest?⟩

theorem Ready.get (ready : serial.Ready)
    (ordinary : serial.coordinator.nextPointer ≠ Version.latest.value)
    (readable : serial.site.2.failReads = false) {request : Get} {column : Column}
    (admitted : request.filter.admitsColumn column) (ceiling : request.filter.ceiling = none)
    (excluded : request.filter.excluded = .empty) (versions : 0 < request.filter.maxVersions) :
    ∃ result, serial.nextGet request = .ok result ∧
      result.value? column = serial.map request.row column := by
  obtain ⟨tx, bound, begins, pointer, reads, none, binds⟩ := ready.begin_eq ordinary
  obtain ⟨valid, started⟩ := Underway.of_bind binds serial.site.2.inner
  rw [nextGet, begins]
  obtain ⟨stamped, row, filter, answered⟩ :=
    Table.get_ok started.bound valid ready.opened readable request
  refine ⟨_, answered, ?_⟩
  have seen : ∀ version,
      serial.site.2.inner.contents ⟨request.row, column, version⟩ ≠ Option.none →
        stamped.filter.admitsVersion version := by
    intro version present
    obtain ⟨value, found⟩ := Option.ne_none_iff_exists'.1 present
    have below := Version.le_sub_one_of_lt (ready.below _ _ found)
    rw [filter, Transaction.admitsVersion_restrict]
    simp [Filter.admitsVersion, Transaction.sees, Transaction.excludes, ceiling, excluded, none,
      reads, SortedMap.contains, below]
  rw [← row] at seen ⊢
  exact MemoryStore.value?_get (ready.newest _ column) (by rw [filter]; exact admitted) seen
    (by rw [filter]; exact versions)

/-- However many transactions have run one after another, committed, failed or given up, the next
one reads in each column the value that the committed ones left there. -/
theorem get_eq_map (first : UInt64) (site : Site) (scripts : List Script) (request : Get)
    (column : Column) (unbound : site.1.binding = none)
    (room : 0 < site.1.config.preImageMaxVersions) (opened : site.2.inner.closed = false)
    (unbuffered : site.2.inner.Unbuffered)
    (below : site.2.inner.VersionsBelow ⟨(Coordinator.startingAt first).nextPointer⟩)
    (inside : ∀ script ∈ scripts, ∀ step ∈ script.steps, step.isInside)
    (short : (Coordinator.startingAt first).nextPointer.toNat + scripts.length <
      Version.latest.toNat)
    (valid : ((start first site).run scripts).coordinator.invalid = .empty)
    (readable : ((start first site).run scripts).site.2.failReads = false)
    (admitted : request.filter.admitsColumn column) (ceiling : request.filter.ceiling = none)
    (excluded : request.filter.excluded = .empty) (versions : 0 < request.filter.maxVersions) :
    ∃ result, ((start first site).run scripts).nextGet request = .ok result ∧
      result.value? column = ((start first site).run scripts).map request.row column := by
  have begun := Ready.start unbound room opened unbuffered below.contents_below
  obtain ⟨ready, pointer⟩ := begun.run inside (Nat.le_of_lt short) valid
  refine ready.get (fun same => ?_) readable admitted ceiling excluded versions
  have value := congrArg UInt64.toNat same
  change _ = Version.latest.toNat at value
  rw [pointer] at value
  exact absurd value (Nat.ne_of_lt short)

/-- One transaction commits, the next one fails on the way and is rolled back, and the third one is
given up after it was in the store. -/
theorem get_eq_map_of_first_of_three :
    let site : Site := ({}, { inner := Sample.store [{ row := "r", version := 3, value := [9] }] })
    let scripts : List Script := [
      ⟨[.call (Sample.RowWrite.put "r" "c" [1]).call], .commit⟩,
      ⟨[.call (Sample.RowWrite.put "r" "d" [2]).call, .call (Sample.RowWrite.deleteRow "r").call,
        .set (.failWrite 2)], .commit⟩,
      ⟨[.call (Sample.RowWrite.deleteColumn "r" "c").call, .call .commit], .abort⟩]
    ∃ result, ((start 7 site).run scripts).nextGet { row := Bytes.ofText "r" } = .ok result ∧
      result.value? Sample.column = some [1] := by
  intro site scripts
  have valid : ((start 7 site).run scripts).coordinator.invalid = .empty := by decide +kernel
  have readable : ((start 7 site).run scripts).site.2.failReads = false := by decide +kernel
  have opened : site.2.inner.closed = false := by decide +kernel
  have unbuffered : site.2.inner.Unbuffered := ⟨by decide +kernel, by decide +kernel⟩
  obtain ⟨result, read, same⟩ := get_eq_map 7 site scripts { row := Bytes.ofText "r" }
    Sample.column rfl (by decide) opened unbuffered (by decide) (by decide) (by decide) valid
    readable rfl rfl rfl (by decide)
  refine ⟨result, read, ?_⟩
  rw [same]
  decide +kernel

end Serial

end SnapshotTable
