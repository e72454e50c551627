import SnapshotTable.Proofs.World

/-!
What the transactions of one coordinator read while they run beside each other: nothing that was
written by one that is not over, and nothing by one that was rolled back, as long as no rollback
writes such cells back. A rollback that does shows them to the next transaction.
-/

namespace SnapshotTable.World

set_option autoImplicit false

variable {initial : Contents} {world : World}

theorem run_append (world : World) (before after : List Act) :
    world.run (before ++ after) = (world.run before).run after :=
  List.foldl_append ..

theorem harmlessIn_append {before after : List Act}
    (harmless : HarmlessIn initial world (before ++ after)) :
    HarmlessIn initial world before ∧ HarmlessIn initial (world.run before) after := by
  induction before generalizing world with
  | nil => exact ⟨trivial, harmless⟩
  | cons act rest ih =>
    obtain ⟨here, later⟩ := harmless
    obtain ⟨early, late⟩ := ih later
    exact ⟨⟨here, early⟩, late⟩

theorem Sound.step (sound : world.Sound initial) {act : Act} (allowed : act.isAllowed)
    (harmless : act.Harmless initial world) : (act.run world).Sound initial := by
  cases act with
  | begin slot => exact sound.begin slot
  | start slot number => exact sound.start slot number
  | call number made => exact sound.call number allowed
  | commit number => exact sound.commit number
  | abort number => exact sound.abort harmless

theorem Sound.run (sound : world.Sound initial) {acts : List Act}
    (allowed : ∀ act ∈ acts, act.isAllowed) (harmless : HarmlessIn initial world acts) :
    (world.run acts).Sound initial := by
  induction acts generalizing world with
  | nil => exact sound
  | cons act rest ih =>
    have next := sound.step (allowed act (List.mem_cons_self ..)) harmless.1
    exact ih next (fun other mem => allowed other (List.mem_cons_of_mem _ mem)) harmless.2

theorem Sound.hides_step (sound : world.Sound initial) {tx : Transaction} {begun : List Version}
    (hides : world.coordinator.Hides world.held tx begun) {act : Act} (allowed : act.isAllowed) :
    (act.run world).coordinator.Hides (act.run world).held tx begun := by
  cases act with
  | begin slot => exact hides.begin (world.held_begin slot)
  | start slot number =>
    rcases world.start_cases slot number with same | ⟨_, takes⟩
    · rw [same]
      exact hides
    · rw [takes.coordinator]
      exact hides.move takes.held
  | call number made =>
    rw [world.held_call number allowed]
    exact hides
  | commit number =>
    cases bound : (world.tables number).binding with
    | none =>
      rw [(idle_of_unbound bound).1]
      exact hides
    | some binding =>
      obtain ⟨ends, committed, _⟩ := sound.commit_ends bound
      refine hides.finish (held_of_bound bound) (held_of_unbind ends.tables ends.slots rfl) ends.pointer ends.progress sound.orderly
        fun version mem => ?_
      rw [committed] at mem
      exact (List.mem_append.1 mem).imp id List.mem_singleton.1
  | abort number =>
    cases bound : (world.tables number).binding with
    | none =>
      rw [(idle_of_unbound bound).2]
      exact hides
    | some binding =>
      obtain ⟨ends, committed, _⟩ := sound.abort_ends bound
      refine hides.finish (held_of_bound bound) (held_of_unbind ends.tables ends.slots rfl) ends.pointer ends.progress sound.orderly
        fun version mem => ?_
      rw [committed] at mem
      exact .inl mem

theorem Sound.hides_run (sound : world.Sound initial) {tx : Transaction} {begun : List Version}
    (hides : world.coordinator.Hides world.held tx begun) {acts : List Act}
    (allowed : ∀ act ∈ acts, act.isAllowed) (harmless : HarmlessIn initial world acts) :
    (world.run acts).coordinator.Hides (world.run acts).held tx begun := by
  induction acts generalizing world with
  | nil => exact hides
  | cons act rest ih =>
    have here := allowed act (List.mem_cons_self ..)
    have next := sound.step here harmless.1
    exact ih next (sound.hides_step hides here)
      (fun other mem => allowed other (List.mem_cons_of_mem _ mem)) harmless.2

theorem Sound.settled_of_seen (sound : world.Sound initial) {tx : Transaction}
    {begun : List Version} (hides : world.coordinator.Hides world.held tx begun) {place : Place}
    {value : Bytes} (stood : world.store.contents place = some value)
    (seen : tx.sees place.version) : initial place = some value ∨ place.version ∈ begun := by
  rcases sound.stored place value stood with old | committed | ⟨number, own, log, bound, version, _⟩
  · exact .inl old
  · exact .inr (hides.committed _ committed seen)
  · have hidden := hides.held (.table number) own (by simp [held, Table.transaction?, bound])
    rw [version, hidden] at seen
    cases seen

theorem Sound.startingAt (first : UInt64) (configs : Nat → TableConfig) {store : MemoryStore}
    (unbuffered : store.Unbuffered) (opened : store.closed = false) :
    (World.startingAt first configs store).Sound store.contents := by
  have nobody : ∀ holder tx, (World.startingAt first configs store).held holder ≠ some tx := by
    intro holder tx holds
    cases holder <;> cases holds
  have positive : 0 < (Coordinator.startingAt first).nextPointer.toNat := by
    change 0 < (if first ≤ 1 then 1 else first).toNat
    split
    · decide
    · rename_i above
      have greater := UInt64.lt_iff_toNat_lt.1 (UInt64.not_le.1 above)
      exact Nat.lt_of_le_of_lt (Nat.zero_le _) greater
  constructor
  · exact ⟨fun holder tx holds => absurd holds (nobody holder tx),
      fun holder tx holds => absurd holds (nobody holder tx),
      fun holder tx holds => absurd holds (nobody holder tx),
      fun holder _ tx _ holds => absurd holds (nobody holder tx),
      .inr ⟨positive, fun holder tx holds => absurd holds (nobody holder tx)⟩⟩
  · exact fun place value found => .inl found
  · intro number tx log bound
    cases bound
  · exact unbuffered
  · exact opened

/-- However the transactions of a coordinator run beside each other, if no rollback writes back what
has become of one that was rolled back before, then every cell that a transaction reads through its
table was in the store at the start, or stands at the write pointer of a transaction that the
coordinator had committed before the reading one began. -/
theorem read_initial_or_committed (first : UInt64) (configs : Nat → TableConfig)
    {store : MemoryStore} (unbuffered : store.Unbuffered) (opened : store.closed = false)
    {before after : List Act} {slot : Nat}
    (allowed : ∀ act ∈ before ++ .begin slot :: after, act.isAllowed)
    (harmless : HarmlessIn store.contents (World.startingAt first configs store)
      (before ++ .begin slot :: after)) :
    let begun := (World.startingAt first configs store).run before
    let ended := (World.startingAt first configs store).run (before ++ .begin slot :: after)
    ∀ number, (ended.tables number).transaction? = some begun.coordinator.begin.1 →
      (∀ request : Get, ∃ result,
        ((ended.tables number).get request ended.store).1 = .ok result ∧
        ∀ cell ∈ result.cells,
          store.contents ⟨request.row, cell.column, cell.version⟩ = some cell.value ∨
            cell.version ∈ begun.coordinator.committedPointers) ∧
      ∀ request : Scan, ∃ results,
        ((ended.tables number).scan request ended.store).1 = .ok results ∧
        ∀ result ∈ results, ∀ cell ∈ result.cells,
          store.contents ⟨result.row, cell.column, cell.version⟩ = some cell.value ∨
            cell.version ∈ begun.coordinator.committedPointers := by
  intro begun ended number holds
  obtain ⟨early, late⟩ := harmlessIn_append harmless
  have sound : begun.Sound store.contents :=
    (Sound.startingAt first configs unbuffered opened).run
      (fun act mem => allowed act (List.mem_append_left _ mem)) early
  have started := sound.begin slot
  have rest : ∀ act ∈ after, act.isAllowed := fun act mem =>
    allowed act (List.mem_append_right _ (List.mem_cons_of_mem _ mem))
  have split : ended = ((Act.begin slot).run begun).run after := run_append ..
  have last : ended.Sound store.contents := by
    rw [split]
    exact started.run rest late.2
  have hides : ended.coordinator.Hides ended.held begun.coordinator.begin.1
      begun.coordinator.committedPointers := by
    rw [split]
    exact started.hides_run (sound.orderly.hides_begun (begun.held_begin slot)) rest late.2
  obtain ⟨⟨tx, log⟩, bound, rfl⟩ := Option.map_eq_some_iff.1 holds
  have valid := last.valid bound
  constructor
  · intro request
    refine ⟨_, Table.get_of_open bound valid last.opened request, fun cell mem => ?_⟩
    obtain ⟨stood, _, admitted⟩ := MemoryStore.contents_of_mem_get mem
    exact last.settled_of_seen hides stood (Transaction.sees_of_admitted _ admitted)
  · intro request
    refine ⟨_, Table.scan_of_open bound valid last.opened request, fun result listed cell mem => ?_⟩
    obtain ⟨_, _, read⟩ := MemoryStore.mem_scan_iff.1 listed
    rw [read] at mem
    obtain ⟨stood, _, admitted⟩ := MemoryStore.contents_of_mem_get mem
    exact last.settled_of_seen hides stood (Transaction.sees_of_admitted _ admitted)

/-- Two transactions are rolled back, and the second one had captured what the first one had sent
before. A third one, begun after both, reads it, although nothing was ever committed. -/
theorem abort_brings_back_aborted_write :
    let world := World.startingAt 1 (fun _ => {}) {}
    let before : List Act := [.begin 0, .start 0 0,
      .call 0 (Sample.RowWrite.put "r" "c" [1]).call, .call 0 .commit, .begin 1, .start 1 1,
      .call 1 (Sample.RowWrite.deleteRow "r").call, .abort 0, .abort 1]
    let begun := world.run before
    let ended := world.run (before ++ [.begin 2, .start 2 2])
    (∀ act ∈ before, act.isAllowed) ∧ begun.coordinator.committedPointers = [] ∧
      (ended.tables 2).transaction? = some begun.coordinator.begin.1 ∧
      world.store.contents ⟨Bytes.ofText "r", Sample.column, ⟨1⟩⟩ = none ∧
      ((ended.tables 2).get { row := Bytes.ofText "r" } ended.store).1.toOption.map (·.cells) =
        some [⟨Sample.column, ⟨1⟩, [1]⟩] := by
  decide +kernel

/-- A rollback writes back a cell of a transaction that has committed in the meantime, and one that
was there at the start, past a third transaction that is rolled back and a fourth that is not over. -/
theorem read_initial_or_committed_past_aborts :
    let store := Sample.store [{ row := "r", version := 3, value := [9] }]
    let before : List Act := [.begin 0, .start 0 0,
      .call 0 (Sample.RowWrite.put "r" "d" [1]).call, .call 0 .commit, .begin 1, .start 1 1,
      .call 1 (Sample.RowWrite.deleteRow "r").call, .call 1 .commit, .commit 0, .abort 1,
      .begin 1, .start 1 1, .call 1 (Sample.RowWrite.put "r" "e" [2]).call, .call 1 .commit,
      .begin 3, .start 3 3, .call 3 (Sample.RowWrite.put "r" "c" [4]).call, .call 3 .commit,
      .abort 1]
    let ended := (World.startingAt 5 (fun _ => {}) store).run (before ++ [.begin 2, .start 2 2])
    ∃ result, ((ended.tables 2).get { row := Bytes.ofText "r" } ended.store).1 = .ok result ∧
      (∀ cell ∈ result.cells,
        store.contents ⟨Bytes.ofText "r", cell.column, cell.version⟩ = some cell.value ∨
          cell.version ∈ [⟨5⟩]) ∧
      result.cells = [⟨Sample.column, ⟨3⟩, [9]⟩, ⟨Sample.columnOf "d", ⟨5⟩, [1]⟩] := by
  intro store before ended
  have unbuffered : store.Unbuffered := ⟨by decide +kernel, by decide +kernel⟩
  have opened : store.closed = false := by decide +kernel
  have allowed : ∀ act ∈ before ++ [.begin 2, .start 2 2], act.isAllowed := by decide +kernel
  have harmless : HarmlessIn store.contents (World.startingAt 5 (fun _ => {}) store)
      (before ++ [.begin 2, .start 2 2]) := by decide +kernel
  have same : (World.startingAt 5 (fun _ => {}) store).run (before ++ [.begin 2, .start 2 2]) =
      ended := rfl
  have holds : (((World.startingAt 5 (fun _ => {}) store).run
      (before ++ [.begin 2, .start 2 2])).tables 2).transaction? = some
        ((World.startingAt 5 (fun _ => {}) store).run before).coordinator.begin.1 := by
    decide +kernel
  have committed : ((World.startingAt 5 (fun _ => {})
      store).run before).coordinator.committedPointers = [⟨5⟩] := by decide +kernel
  have evaluated : ((ended.tables 2).get { row := Bytes.ofText "r" }
      ended.store).1.toOption.map (·.cells) =
        some [⟨Sample.column, ⟨3⟩, [9]⟩, ⟨Sample.columnOf "d", ⟨5⟩, [1]⟩] := by decide +kernel
  have reads := (read_initial_or_committed 5 (fun _ => {}) unbuffered opened allowed harmless 2
    holds).1 { row := Bytes.ofText "r" }
  rw [committed, same] at reads
  obtain ⟨result, read, settled⟩ := reads
  refine ⟨result, read, settled, ?_⟩
  rw [read] at evaluated
  exact Option.some.inj evaluated

/-- Transactions that are over are not in progress, their pointers lie below those to come, and each
of them was either committed or rolled back. -/
structure Retired (world : World) : Prop where
  invalid : world.coordinator.invalid = .empty
  decided : world.coordinator.Exhausted ∨
    (∀ version, version ∈ world.aborted ∨ version ∈ world.coordinator.committedPointers →
      version.toNat < world.coordinator.nextPointer.toNat ∧
        world.coordinator.inProgress.contains version = false) ∧
      ∀ version ∈ world.aborted, version ∉ world.coordinator.committedPointers

theorem Retired.begin (retired : world.Retired) (slot : Nat) :
    ((Act.begin slot).run world).Retired where
  invalid := retired.invalid
  decided := by
    by_cases exhausted : world.coordinator.begin.2.Exhausted
    · exact .inl exhausted
    have grown := Coordinator.toNat_nextPointer_begin exhausted
    obtain ⟨settled, apart⟩ := retired.decided.resolve_left fun full =>
      exhausted (Coordinator.exhausted_begin full)
    refine .inr ⟨fun version listed => ?_, apart⟩
    obtain ⟨below, finished⟩ := settled version listed
    constructor
    · change version.toNat < world.coordinator.begin.2.nextPointer.toNat
      omega
    · have other : version ≠ ⟨world.coordinator.nextPointer⟩ := by
        rintro rfl
        exact Nat.lt_irrefl _ below
      change world.coordinator.begin.2.inProgress.contains version = false
      rw [Coordinator.inProgress_begin, finished]
      simpa using other

theorem Retired.of_ends (retired : world.Retired) (sound : world.Sound initial) {next : World}
    {number : Nat} {tx : Transaction} {log : PendingLog}
    (bound : (world.tables number).binding = some ⟨tx, log⟩) (ends : world.Ends next number tx)
    (outcome : next.aborted = world.aborted ∧ next.coordinator.committedPointers =
        world.coordinator.committedPointers ++ [tx.writePointer] ∨
      next.aborted = tx.writePointer :: world.aborted ∧ next.coordinator.committedPointers =
        world.coordinator.committedPointers) : next.Retired where
  invalid := ends.invalid.trans retired.invalid
  decided := by
    by_cases exhausted : world.coordinator.Exhausted
    · exact .inl (sound.orderly.exhausted_finish (held_of_bound bound) ends.progress exhausted)
    obtain ⟨settled, apart⟩ := retired.decided.resolve_left exhausted
    have counted := sound.orderly.counted _ _ (held_of_bound bound)
    have below := (sound.orderly.below.resolve_left exhausted).2 _ _ (held_of_bound bound)
    have fresh : ∀ version, version ∈ world.aborted ∨
        version ∈ world.coordinator.committedPointers → version ≠ tx.writePointer := by
      rintro version listed rfl
      rw [(settled _ listed).2] at counted
      cases counted
    refine .inr ⟨fun version listed => ?_, fun version gone committed => ?_⟩
    · have known : version = tx.writePointer ∨ version ∈ world.aborted ∨
          version ∈ world.coordinator.committedPointers := by
        rcases outcome with ⟨same, more⟩ | ⟨more, same⟩ <;> rw [same, more] at listed <;>
          simp only [List.mem_append, List.mem_cons, List.not_mem_nil, or_false] at listed <;>
          tauto
      rw [ends.pointer, ends.progress, SortedSet.contains_erase]
      rcases known with rfl | old
      · exact ⟨below, by simp⟩
      · exact ⟨(settled version old).1, by simp [(settled version old).2]⟩
    · rcases outcome with ⟨same, more⟩ | ⟨more, same⟩
      · rw [same] at gone
        rw [more] at committed
        rcases List.mem_append.1 committed with old | last
        · exact apart version gone old
        · exact fresh version (.inl gone) (List.mem_singleton.1 last)
      · rw [more] at gone
        rw [same] at committed
        rcases List.mem_cons.1 gone with rfl | old
        · exact fresh _ (.inr committed) rfl
        · exact apart version old committed

theorem Retired.step (retired : world.Retired) (sound : world.Sound initial) (act : Act) :
    (act.run world).Retired := by
  cases act with
  | begin slot => exact retired.begin slot
  | start slot number =>
    rcases world.start_cases slot number with same | ⟨_, takes⟩
    · rw [same]
      exact retired
    · exact ⟨takes.coordinator ▸ retired.invalid, by
        rw [takes.coordinator, takes.aborted]
        exact retired.decided⟩
  | call number made => exact ⟨retired.invalid, retired.decided⟩
  | commit number =>
    cases bound : (world.tables number).binding with
    | none =>
      rw [(idle_of_unbound bound).1]
      exact retired
    | some binding =>
      obtain ⟨ends, committed, aborted, _⟩ := sound.commit_ends bound
      exact retired.of_ends sound bound ends (.inl ⟨aborted, committed⟩)
  | abort number =>
    cases bound : (world.tables number).binding with
    | none =>
      rw [(idle_of_unbound bound).2]
      exact retired
    | some binding =>
      obtain ⟨ends, committed, aborted, _⟩ := sound.abort_ends bound
      exact retired.of_ends sound bound ends (.inr ⟨aborted, committed⟩)

theorem Retired.run (retired : world.Retired) (sound : world.Sound initial) {acts : List Act}
    (allowed : ∀ act ∈ acts, act.isAllowed) (harmless : HarmlessIn initial world acts) :
    (world.run acts).Retired := by
  induction acts generalizing world with
  | nil => exact retired
  | cons act rest ih =>
    have next := sound.step (allowed act (List.mem_cons_self ..)) harmless.1
    exact ih (retired.step sound act) next
      (fun other mem => allowed other (List.mem_cons_of_mem _ mem)) harmless.2

theorem Retired.startingAt (first : UInt64) (configs : Nat → TableConfig) (store : MemoryStore) :
    (World.startingAt first configs store).Retired where
  invalid := rfl
  decided := .inr ⟨by simp [World.startingAt, Coordinator.startingAt, Coordinator.committedPointers],
    by simp [World.startingAt]⟩

/-- A valid transaction sees the versions of those that were rolled back before it began. -/
theorem Retired.sees (retired : world.Retired)
    (valid : world.coordinator.begin.1.validate = .ok ()) {version : Version}
    (gone : version ∈ world.aborted) : world.coordinator.begin.1.sees version := by
  obtain ⟨settled, _⟩ := retired.decided.resolve_left (Coordinator.not_exhausted_of_valid valid)
  obtain ⟨below, finished⟩ := settled version (.inl gone)
  have read : world.coordinator.begin.1.readPointer.toNat =
      world.coordinator.nextPointer.toNat - 1 := Version.toNat_sub_one (Nat.zero_lt_of_lt below)
  have reached : version ≤ world.coordinator.begin.1.readPointer := by
    rw [Version.le_iff]
    omega
  rw [Transaction.sees, Coordinator.excludes_begin, finished, retired.invalid,
    decide_eq_true reached]
  rfl

theorem Sound.harmful_abort_leaves (sound : world.Sound initial) {number : Nat} {tx : Transaction}
    {log : PendingLog} (bound : (world.tables number).binding = some ⟨tx, log⟩)
    (harmful : ¬world.Harmless initial number) : ∃ place value, place.version ∈ world.aborted ∧
      initial place ≠ some value ∧
      ((Act.abort number).run world).store.contents place = some value := by
  simp only [Harmless, Table.log, bound, Option.elim_some, not_forall] at harmful
  obtain ⟨entry, mem, place, captures, gone, differs⟩ := harmful
  obtain ⟨value, captured⟩ : ∃ value, PendingLog.captured? log place = some value := by
    rw [← Option.isSome_iff_exists, PendingLog.captured?, List.findSome?_isSome_iff]
    exact ⟨entry, mem, Option.isSome_iff_ne_none.2 ((entry.mem_captures_iff place).1 captures)⟩
  obtain ⟨_, _, _, contents, _⟩ := sound.abort_ends bound
  refine ⟨place, value, gone, fun stood => differs (captured.trans stood.symm), ?_⟩
  rw [contents, sound.undo_eq_captured bound mem captures, captured]
  rfl

theorem binding_begin_start (world : World) (slot : Nat) {number : Nat}
    (unbound : (world.tables number).binding = none)
    (valid : world.coordinator.begin.1.validate = .ok ()) :
    let next := world.run [.begin slot, .start slot number]
    (next.tables number).binding = some { tx := world.coordinator.begin.1 } ∧
      next.store = world.store ∧
      next.coordinator.committedPointers = world.coordinator.committedPointers := by
  simp only [run, List.foldl, Act.run, Function.update_self, Table.bind_of_unbound unbound valid,
    put]
  exact ⟨trivial, trivial, rfl⟩

theorem Sound.harmful_abort_read (sound : world.Sound initial) (retired : world.Retired)
    {number : Nat} (harmful : ¬world.Harmless initial number) {next : World}
    (aborts : next = (Act.abort number).run world)
    (valid : next.coordinator.begin.1.validate = .ok ()) (slot : Nat) :
    let ended := next.run [.begin slot, .start slot number]
    ∃ request result, ((ended.tables number).get request ended.store).1 = .ok result ∧
      ∃ cell ∈ result.cells, initial ⟨request.row, cell.column, cell.version⟩ ≠ some cell.value ∧
        cell.version ∉ ended.coordinator.committedPointers := by
  intro ended
  cases bound : (world.tables number).binding with
  | none =>
    refine absurd (fun entry mem => ?_) harmful
    simp [Table.log, bound] at mem
  | some binding =>
    obtain ⟨tx, log⟩ := binding
    obtain ⟨place, value, gone, fresh, left⟩ := sound.harmful_abort_leaves bound harmful
    obtain ⟨ends, _, aborted, _, _, opened⟩ := sound.abort_ends bound
    have retires := retired.step sound (.abort number)
    rw [← aborts] at left ends aborted opened retires
    have unbound : (next.tables number).binding = none := by
      rw [ends.tables, Function.update_self]
      rfl
    have listed : place.version ∈ next.aborted := by
      rw [aborted]
      exact List.mem_cons_of_mem _ gone
    obtain ⟨begins, same, committed⟩ := next.binding_begin_start slot unbound valid
    have stays : ended.store.closed = false := same ▸ opened
    refine ⟨place.probe, _, Table.get_of_open begins valid stays _,
      ⟨place.column, place.version, value⟩, ?_, fresh, ?_⟩
    · rw [MemoryStore.mem_probe_iff _ (retires.sees valid listed), same]
      exact left
    · rw [committed]
      exact (retires.decided.resolve_left (Coordinator.not_exhausted_of_valid valid)).2 _ listed

/-- No rollback but a harmless one will do: after any other, a transaction that begins next reads a
cell which was not in the store at the start, and whose transaction the coordinator did not commit. -/
theorem harmful_abort_shows (first : UInt64) (configs : Nat → TableConfig) {store : MemoryStore}
    (unbuffered : store.Unbuffered) (opened : store.closed = false) {before : List Act}
    {number : Nat} (allowed : ∀ act ∈ before, act.isAllowed)
    (harmless : HarmlessIn store.contents (World.startingAt first configs store) before)
    (harmful : ¬((World.startingAt first configs store).run before).Harmless store.contents number)
    (valid : ((World.startingAt first configs store).run
      (before ++ [.abort number])).coordinator.begin.1.validate = .ok ()) (slot : Nat) :
    let ended := (World.startingAt first configs store).run
      (before ++ [.abort number] ++ [.begin slot, .start slot number])
    ∃ request result, ((ended.tables number).get request ended.store).1 = .ok result ∧
      ∃ cell ∈ result.cells,
        store.contents ⟨request.row, cell.column, cell.version⟩ ≠ some cell.value ∧
          cell.version ∉ ended.coordinator.committedPointers := by
  have sound := Sound.startingAt first configs unbuffered opened
  have retired := (Retired.startingAt first configs store).run sound allowed harmless
  rw [run_append _ (before ++ [Act.abort number])]
  exact (sound.run allowed harmless).harmful_abort_read retired harmful (run_append ..) valid slot

end SnapshotTable.World
