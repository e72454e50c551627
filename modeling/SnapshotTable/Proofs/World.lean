import Mathlib.Logic.Function.Basic
import SnapshotTable.Proofs.Coordination
import SnapshotTable.Proofs.Direct
import SnapshotTable.Proofs.Snapshot

/-!
Many tables over one store, with transactions that one coordinator hands out and ends. What a store
holds was there at the start, or belongs to a transaction that has committed or is not over, as long
as no rollback writes back what it had captured of a transaction that was rolled back before it.
-/

namespace SnapshotTable

set_option autoImplicit false

/-- A coordinator, tables over one store, and slots in which transactions wait for a table. The
write pointers of the transactions that were rolled back are kept for reference only. -/
structure World where
  coordinator : Coordinator
  slots : Nat → Option Transaction
  tables : Nat → Table
  store : MemoryStore
  aborted : List Version

inductive Act where
  | begin (slot : Nat)
  | start (slot table : Nat)
  | call (table : Nat) (made : TableCall)
  | commit (table : Nat)
  | abort (table : Nat)
deriving DecidableEq

namespace World

def startingAt (first : UInt64) (configs : Nat → TableConfig) (store : MemoryStore) : World where
  coordinator := .startingAt first
  slots := fun _ => none
  tables := fun number => { config := configs number }
  store := store
  aborted := []

def put (world : World) (number : Nat) (site : Table × MemoryStore) : World :=
  { world with tables := Function.update world.tables number site.1, store := site.2 }

end World

namespace Act

def run (world : World) : Act → World
  | begin slot =>
    let (tx, coordinator) := world.coordinator.begin
    { world with coordinator := coordinator, slots := Function.update world.slots slot (some tx) }
  | start slot table =>
    match world.slots slot with
    | none => world
    | some tx =>
      match (world.tables table).bind tx with
      | (.error _, _) => world
      | (.ok (), bound) =>
        { world.put table (bound, world.store) with
          slots := Function.update world.slots slot none }
  | call table made => world.put table ((world.tables table).perform world.store made).2
  | commit table =>
    match (world.tables table).transaction? with
    | none => world
    | some tx =>
      let (_, site, coordinator) :=
        world.coordinator.commit tx (world.tables table, world.store)
      { world.put table site with coordinator := coordinator }
  | abort table =>
    match (world.tables table).transaction? with
    | none => world
    | some tx =>
      let (_, site, coordinator) :=
        world.coordinator.abort tx (world.tables table, world.store)
      { world.put table site with
        coordinator := coordinator
        aborted := tx.writePointer :: world.aborted }

/-- A table itself reads, buffers and sends; its transaction is ended by the coordinator. -/
def isAllowed : Act → Bool
  | call _ made => made.isInside
  | _ => true

end Act

/-- The table's transaction has a put that is to fill the place. -/
def Table.Owns (table : Table) (place : Place) : Prop :=
  ∃ tx log, table.binding = some ⟨tx, log⟩ ∧ place.version = tx.writePointer ∧
    ∃ made ∈ PendingLog.mutations log, ∃ value, made.change place = some (some value)

namespace World

def run (world : World) (acts : List Act) : World := acts.foldl Act.run world

def held (world : World) : Holders
  | .slot number => (world.slots number).filter fun tx => decide (tx.validate = .ok ())
  | .table number => (world.tables number).transaction?

/-- A cell was there at the start, or belongs to a transaction that has committed or is not over. -/
def Rightful (initial : Contents) (world : World) (place : Place) (value : Bytes) : Prop :=
  initial place = some value ∨ place.version ∈ world.coordinator.committedPointers ∨
    ∃ number, (world.tables number).Owns place

/-- A cell is rightful, or was so until its transaction was rolled back. -/
def Known (initial : Contents) (world : World) (place : Place) (value : Bytes) : Prop :=
  world.Rightful initial place value ∨ place.version ∈ world.aborted

def Knows (initial : Contents) (world : World) (seen : MemoryStore) : Prop :=
  ∀ place value, seen.contents place = some value → world.Known initial place value

/-- The store holds rightful cells only, and what waits in the logs was prepared from known ones. -/
structure Sound (initial : Contents) (world : World) : Prop where
  orderly : world.coordinator.Orderly world.held
  stored : ∀ place value, world.store.contents place = some value →
    world.Rightful initial place value
  logged : ∀ number tx log, (world.tables number).binding = some ⟨tx, log⟩ →
    ∀ entry ∈ log, entry.Made tx (world.Knows initial)
  unbuffered : world.store.Unbuffered
  opened : world.store.closed = false

/-- Of what a table's rollback is to write back, the cells of transactions that were rolled back
before are those that were there at the start. -/
def Harmless (initial : Contents) (world : World) (number : Nat) : Prop :=
  ∀ entry ∈ (world.tables number).log, ∀ place ∈ entry.captures, place.version ∈ world.aborted →
    PendingLog.captured? (world.tables number).log place = initial place

instance (initial : Contents) (world : World) (number : Nat) :
    Decidable (world.Harmless initial number) :=
  inferInstanceAs (Decidable (∀ entry ∈ (world.tables number).log, ∀ place ∈ entry.captures,
    place.version ∈ world.aborted →
      PendingLog.captured? (world.tables number).log place = initial place))

variable {initial : Contents} {world next : World} {number : Nat} {table : Table}

section Update

variable (tables : next.tables = Function.update world.tables number table)

include tables

/-- When one table changes and nothing is taken back from the committed transactions, a rightful cell
stays so, unless the table had owned it. -/
theorem Rightful.update {place : Place} {value : Bytes}
    (rightful : world.Rightful initial place value)
    (committed : ∀ version ∈ world.coordinator.committedPointers,
      version ∈ next.coordinator.committedPointers) :
    next.Rightful initial place value ∨ (world.tables number).Owns place := by
  rcases rightful with stood | old | ⟨other, owns⟩
  · exact .inl (.inl stood)
  · exact .inl (.inr (.inl (committed _ old)))
  · by_cases same : other = number
    · subst same
      exact .inr owns
    · refine .inl (.inr (.inr ⟨other, ?_⟩))
      rw [tables, Function.update_of_ne same]
      exact owns

theorem logged_update
    (logged : ∀ other tx log, (world.tables other).binding = some ⟨tx, log⟩ →
      ∀ entry ∈ log, entry.Made tx (world.Knows initial))
    (known : ∀ place value, world.Known initial place value → next.Known initial place value)
    (own : ∀ tx log, table.binding = some ⟨tx, log⟩ →
      ∀ entry ∈ log, entry.Made tx (next.Knows initial)) :
    ∀ other tx log, (next.tables other).binding = some ⟨tx, log⟩ →
      ∀ entry ∈ log, entry.Made tx (next.Knows initial) := by
  intro other tx log bound
  rw [tables] at bound
  by_cases same : other = number
  · subst same
    rw [Function.update_self] at bound
    exact own tx log bound
  · rw [Function.update_of_ne same] at bound
    intro entry mem
    exact (logged other tx log bound entry mem).imp fun seen knows place value found =>
      known place value (knows place value found)

theorem held_update (slots : next.slots = world.slots)
    (same : table.transaction? = (world.tables number).transaction?) : next.held = world.held := by
  funext holder
  cases holder with
  | slot other => simp only [held, slots]
  | table other =>
    simp only [held, tables]
    by_cases here : other = number
    · subst here
      rw [Function.update_self, same]
    · rw [Function.update_of_ne here]

theorem held_of_unbind (slots : next.slots = world.slots) (unbound : table.binding = none) :
    ∀ other tx, next.held other = some tx →
      other ≠ .table number ∧ world.held other = some tx := by
  intro other tx holds
  cases other with
  | slot other =>
    simp only [held, slots] at holds ⊢
    exact ⟨by simp, holds⟩
  | table other =>
    simp only [held, tables] at holds ⊢
    by_cases here : other = number
    · subst here
      rw [Function.update_self, Table.transaction?, unbound] at holds
      cases holds
    · rw [Function.update_of_ne here] at holds
      exact ⟨by simpa using here, holds⟩

end Update

theorem Sound.valid (sound : world.Sound initial) {tx : Transaction} {log : PendingLog}
    (bound : (world.tables number).binding = some ⟨tx, log⟩) : tx.validate = .ok () :=
  sound.orderly.valid (.table number) tx (by simp [held, Table.transaction?, bound])

theorem Sound.knows (sound : world.Sound initial) : world.Knows initial world.store :=
  fun place value found => .inl (sound.stored place value found)

theorem held_begin (world : World) (slot : Nat) : ∀ holder tx,
    ((Act.begin slot).run world).held holder = some tx → world.held holder = some tx ∨
      (holder = .slot slot ∧ tx = world.coordinator.begin.1 ∧ tx.validate = .ok ()) := by
  intro holder tx holds
  cases holder with
  | slot other =>
    by_cases here : other = slot
    · subst here
      simp only [Act.run, held, Function.update_self, Option.filter_some] at holds
      split at holds
      · rename_i valid
        cases holds
        exact .inr ⟨rfl, rfl, by simpa using valid⟩
      · cases holds
    · simp only [Act.run, held, Function.update_of_ne here] at holds
      exact .inl holds
  | table other => exact .inl holds

theorem Sound.begin (sound : world.Sound initial) (slot : Nat) :
    ((Act.begin slot).run world).Sound initial where
  orderly := sound.orderly.begin (world.held_begin slot)
  stored := sound.stored
  logged := sound.logged
  unbuffered := sound.unbuffered
  opened := sound.opened

/-- A table takes over the transaction of a slot. -/
structure Takes (world next : World) (slot number : Nat) (tx : Transaction) : Prop where
  waits : world.slots slot = some tx
  valid : tx.validate = .ok ()
  unbound : (world.tables number).binding = none
  coordinator : next.coordinator = world.coordinator
  slots : next.slots = Function.update world.slots slot none
  tables : next.tables = Function.update world.tables number
    { world.tables number with binding := some { tx := tx } }
  store : next.store = world.store
  aborted : next.aborted = world.aborted

theorem start_cases (world : World) (slot number : Nat) :
    (Act.start slot number).run world = world ∨
      ∃ tx, world.Takes ((Act.start slot number).run world) slot number tx := by
  cases waits : world.slots slot with
  | none => exact .inl (by simp only [Act.run, waits])
  | some tx =>
    cases binds : (world.tables number).bind tx with
    | mk result bound =>
      cases result with
      | error error => exact .inl (by simp only [Act.run, waits, binds])
      | ok _ =>
        obtain ⟨unbound, valid, rfl⟩ := Table.bind_ok binds
        refine .inr ⟨tx, waits, valid, unbound, ?_, ?_, ?_, ?_, ?_⟩ <;>
          simp only [Act.run, waits, binds, put]

theorem Takes.held {slot : Nat} {tx : Transaction} (takes : world.Takes next slot number tx) :
    ∀ holder other, next.held holder = some other →
      (holder ≠ .slot slot ∧ world.held holder = some other) ∨
        (holder = .table number ∧ world.held (.slot slot) = some other) := by
  intro holder other holds
  cases holder with
  | slot another =>
    by_cases here : another = slot
    · subst here
      simp [World.held, takes.slots] at holds
    · simp only [World.held, takes.slots, Function.update_of_ne here] at holds
      exact .inl ⟨by simpa using here, holds⟩
  | table another =>
    by_cases here : another = number
    · subst here
      simp only [World.held, takes.tables, Function.update_self, Table.transaction?] at holds
      cases holds
      exact .inr ⟨rfl, by simp [World.held, takes.waits, takes.valid]⟩
    · simp only [World.held, takes.tables, Function.update_of_ne here] at holds
      exact .inl ⟨by simp, holds⟩

theorem Sound.start (sound : world.Sound initial) (slot number : Nat) :
    ((Act.start slot number).run world).Sound initial := by
  rcases world.start_cases slot number with same | ⟨tx, takes⟩
  · rw [same]
    exact sound
  have rightful : ∀ place value, world.Rightful initial place value →
      ((Act.start slot number).run world).Rightful initial place value := by
    intro place value rightful
    rcases rightful.update takes.tables (by simp [takes.coordinator]) with still | ⟨_, _, bound, _⟩
    · exact still
    · cases takes.unbound.symm.trans bound
  have known : ∀ place value, world.Known initial place value →
      ((Act.start slot number).run world).Known initial place value := by
    intro place value known
    unfold Known
    rw [takes.aborted]
    exact known.imp_left (rightful place value)
  constructor
  · rw [takes.coordinator]
    exact sound.orderly.move takes.held
  · intro place value found
    rw [takes.store] at found
    exact rightful place value (sound.stored place value found)
  · apply logged_update takes.tables sound.logged known
    intro other log bound entry mem
    cases bound
    cases mem
  · rw [takes.store]
    exact sound.unbuffered
  · rw [takes.store]
    exact sound.opened

theorem Sound.replace (sound : world.Sound initial)
    (same : table.transaction? = (world.tables number).transaction?)
    (owned : ∀ place, (world.tables number).Owns place → table.Owns place)
    (logged : ∀ tx log, table.binding = some ⟨tx, log⟩ →
      ∀ entry ∈ log, entry.Made tx (world.Knows initial)) :
    (world.put number (table, world.store)).Sound initial := by
  have tables : (world.put number (table, world.store)).tables =
      Function.update world.tables number table := rfl
  have rightful : ∀ place value, world.Rightful initial place value →
      (world.put number (table, world.store)).Rightful initial place value := by
    intro place value rightful
    rcases rightful.update tables (fun _ old => old) with still | owns
    · exact still
    · refine .inr (.inr ⟨number, ?_⟩)
      rw [tables, Function.update_self]
      exact owned place owns
  have known : ∀ place value, world.Known initial place value →
      (world.put number (table, world.store)).Known initial place value :=
    fun place value known => known.imp_left (rightful place value)
  constructor
  · have kept : (world.put number (table, world.store)).held = world.held :=
      held_update tables rfl same
    rw [kept]
    exact sound.orderly
  · exact fun place value found => rightful place value (sound.stored place value found)
  · apply logged_update tables sound.logged known
    intro tx log bound entry mem
    exact (logged tx log bound entry mem).imp fun seen knows place value found =>
      known place value (knows place value found)
  · exact sound.unbuffered
  · exact sound.opened

theorem Sound.commit_store (sound : world.Sound initial) {tx : Transaction} {log : PendingLog}
    (bound : (world.tables number).binding = some ⟨tx, log⟩) :
    ((world.tables number).commit world.store).1 = .ok () ∧
      ((world.tables number).commit world.store).2.Unbuffered ∧
      ((world.tables number).commit world.store).2.closed = false ∧
      ∀ place value, ((world.tables number).commit world.store).2.contents place = some value →
        world.Rightful initial place value := by
  have made := sound.logged number tx log bound
  obtain ⟨succeeded, contents, unbuffered, opened⟩ :=
    Table.commit_of_open bound (sound.valid bound) made sound.unbuffered sound.opened
  refine ⟨succeeded, unbuffered, opened, fun place value found => ?_⟩
  rw [contents] at found
  rcases Contents.applyAll_some _ found with stood | ⟨change, mem, wrote⟩
  · exact sound.stored place value stood
  · obtain ⟨mutation, member, rfl⟩ := List.mem_map.1 mem
    obtain ⟨entry, inLog, sends⟩ := List.mem_filterMap.1 member
    have version := (made entry inLog).version_of_value sends wrote
    exact .inr (.inr ⟨number, tx, log, bound, version, mutation, member, value, wrote⟩)

theorem Sound.send (sound : world.Sound initial) {tx : Transaction} {log : PendingLog}
    (bound : (world.tables number).binding = some ⟨tx, log⟩) :
    ((Act.call number .commit).run world).Sound initial := by
  obtain ⟨_, unbuffered, opened, stored⟩ := sound.commit_store bound
  have same : (Act.call number .commit).run world =
      { world with store := ((world.tables number).commit world.store).2 } := by
    change world.put number
      (world.tables number, ((world.tables number).commit world.store).2) = _
    rw [put, Function.update_eq_self]
  rw [same]
  exact ⟨sound.orderly, stored, sound.logged, unbuffered, opened⟩

theorem Sound.call (sound : world.Sound initial) (number : Nat) {made : TableCall}
    (inside : made.isInside) : ((Act.call number made).run world).Sound initial := by
  have performed : (Act.call number made).run world =
      world.put number (((world.tables number).perform world.store made).2.1,
        ((world.tables number).perform world.store made).2.2) := rfl
  cases bound : (world.tables number).binding with
  | none =>
    obtain ⟨unbound, kept⟩ := Table.perform_of_unbound bound (.inl inside) world.store
    have stays : ((world.tables number).perform world.store made).2.2 = world.store := kept
    rw [performed, stays]
    apply sound.replace
    · simp [Table.transaction?, bound, unbound]
    · rintro place ⟨_, _, same, _⟩
      cases bound.symm.trans same
    · intro tx log same
      cases unbound.symm.trans same
  | some binding =>
    obtain ⟨tx, log⟩ := binding
    rcases Table.inside_of_bound bound inside sound.knows with rfl | ⟨stays, entries, longer, added⟩
    · exact sound.send bound
    rw [performed, stays]
    apply sound.replace
    · simp [Table.transaction?, bound, longer]
    · rintro place ⟨_, _, same, version, mutation, mem, wrote⟩
      cases bound.symm.trans same
      refine ⟨tx, log ++ entries, longer, version, mutation, ?_, wrote⟩
      rw [PendingLog.mutations_append]
      exact List.mem_append_left _ mem
    · intro own all same entry mem
      cases longer.symm.trans same
      rcases List.mem_append.1 mem with mem | mem
      · exact sound.logged number tx log bound entry mem
      · exact added entry mem

structure Ends (world next : World) (number : Nat) (tx : Transaction) : Prop where
  slots : next.slots = world.slots
  tables : next.tables = Function.update world.tables number (world.tables number).unbind
  pointer : next.coordinator.nextPointer = world.coordinator.nextPointer
  progress : next.coordinator.inProgress = world.coordinator.inProgress.erase tx.writePointer
  invalid : next.coordinator.invalid = world.coordinator.invalid

theorem held_of_bound {tx : Transaction} {log : PendingLog}
    (bound : (world.tables number).binding = some ⟨tx, log⟩) :
    world.held (.table number) = some tx := by
  simp [held, Table.transaction?, bound]

theorem Sound.commit_ends (sound : world.Sound initial) {tx : Transaction} {log : PendingLog}
    (bound : (world.tables number).binding = some ⟨tx, log⟩) :
    let next := (Act.commit number).run world
    world.Ends next number tx ∧
      next.coordinator.committedPointers =
        world.coordinator.committedPointers ++ [tx.writePointer] ∧
      next.aborted = world.aborted ∧ next.store = ((world.tables number).commit world.store).2 := by
  have here : (world.tables number).transaction? = some tx := by simp [Table.transaction?, bound]
  have site : ((world.tables number, world.store) : Table × MemoryStore).1.binding =
    some ⟨tx, log⟩ := bound
  obtain ⟨succeeded, _⟩ := sound.commit_store bound
  rcases Coordinator.commit_cases site (sound.valid bound) world.coordinator with
    ⟨_, committed⟩ | ⟨error, failed, _⟩
  · simp only [Act.run, here, committed]
    exact ⟨⟨rfl, rfl, rfl, rfl, rfl⟩, List.map_append, rfl, rfl⟩
  · cases succeeded.symm.trans failed

theorem Sound.abort_ends (sound : world.Sound initial) {tx : Transaction} {log : PendingLog}
    (bound : (world.tables number).binding = some ⟨tx, log⟩) :
    let next := (Act.abort number).run world
    world.Ends next number tx ∧
      next.coordinator.committedPointers = world.coordinator.committedPointers ∧
      next.aborted = tx.writePointer :: world.aborted ∧
      (∀ place, next.store.contents place =
        (log.findSome? (·.undo place)).getD (world.store.contents place)) ∧
      next.store.Unbuffered ∧ next.store.closed = false := by
  have valid := sound.valid bound
  have explicit : ∀ entry ∈ log, entry.Explicit := fun entry mem =>
    (sound.logged number tx log bound entry mem).explicit
      (Transaction.validate_eq_ok_iff.1 valid).1
  obtain ⟨succeeded, unbound, contents, unbuffered, opened⟩ :=
    Table.rollback_of_open bound valid explicit sound.unbuffered sound.opened
  have here : (world.tables number).transaction? = some tx := by simp [Table.transaction?, bound]
  have aborted : world.coordinator.abort tx (world.tables number, world.store) =
      (.ok (), ((world.tables number).unbind, ((world.tables number).rollback world.store).2.2),
        { world.coordinator with
          inProgress := world.coordinator.inProgress.erase tx.writePointer }) := by
    simp only [Coordinator.abort, Participant.rollback, succeeded, ← unbound]
  have same : (Act.abort number).run world = { world.put number
        ((world.tables number).unbind, ((world.tables number).rollback world.store).2.2) with
      coordinator := { world.coordinator with
        inProgress := world.coordinator.inProgress.erase tx.writePointer }
      aborted := tx.writePointer :: world.aborted } := by
    simp only [Act.run, here, aborted]
  rw [same]
  exact ⟨⟨rfl, rfl, rfl, rfl, rfl⟩, rfl, rfl, contents, unbuffered, opened⟩

theorem idle_of_unbound (unbound : (world.tables number).binding = none) :
    (Act.commit number).run world = world ∧ (Act.abort number).run world = world := by
  have nobody : (world.tables number).transaction? = none := by
    simp [Table.transaction?, unbound]
  simp only [Act.run, nobody]
  exact ⟨trivial, trivial⟩

theorem Sound.of_ends (sound : world.Sound initial) {tx : Transaction} {log : PendingLog}
    (bound : (world.tables number).binding = some ⟨tx, log⟩) (ends : world.Ends next number tx)
    (committed : ∀ version ∈ world.coordinator.committedPointers,
      version ∈ next.coordinator.committedPointers)
    (aborted : ∀ version ∈ world.aborted, version ∈ next.aborted)
    (decided : tx.writePointer ∈ next.coordinator.committedPointers ∨ tx.writePointer ∈ next.aborted)
    (stored : ∀ place value, next.store.contents place = some value →
      next.Rightful initial place value)
    (unbuffered : next.store.Unbuffered) (opened : next.store.closed = false) :
    next.Sound initial := by
  have holds : world.held (.table number) = some tx := by
    simp [held, Table.transaction?, bound]
  have known : ∀ place value, world.Known initial place value →
      next.Known initial place value := by
    intro place value known
    rcases known with rightful | gone
    · rcases rightful.update ends.tables committed with still | ⟨_, _, owner, version, _⟩
      · exact .inl still
      · cases bound.symm.trans owner
        rw [← version] at decided
        exact decided.imp (fun listed => .inr (.inl listed)) id
    · exact .inr (aborted _ gone)
  constructor
  · exact sound.orderly.finish holds (held_of_unbind ends.tables ends.slots rfl) ends.pointer
      ends.progress
  · exact stored
  · apply logged_update ends.tables sound.logged known
    intro other log same
    cases same
  · exact unbuffered
  · exact opened

theorem Sound.commit (sound : world.Sound initial) (number : Nat) :
    ((Act.commit number).run world).Sound initial := by
  cases bound : (world.tables number).binding with
  | none =>
    rw [(idle_of_unbound bound).1]
    exact sound
  | some binding =>
    obtain ⟨tx, log⟩ := binding
    obtain ⟨_, unbuffered, opened, stored⟩ := sound.commit_store bound
    obtain ⟨ends, committed, aborted, store⟩ := sound.commit_ends bound
    have recorded : tx.writePointer ∈
        ((Act.commit number).run world).coordinator.committedPointers := by
      rw [committed]
      exact List.mem_append_right _ (List.mem_singleton.2 rfl)
    have kept : ∀ version ∈ world.coordinator.committedPointers,
        version ∈ ((Act.commit number).run world).coordinator.committedPointers := by
      intro version old
      rw [committed]
      exact List.mem_append_left _ old
    apply sound.of_ends bound ends kept (by simp [aborted]) (.inl recorded)
    · intro place value found
      rw [store] at found
      rcases (stored place value found).update ends.tables kept with
        still | ⟨_, _, owner, version, _⟩
      · exact still
      · cases bound.symm.trans owner
        exact .inr (.inl (version ▸ recorded))
    · rw [store]
      exact unbuffered
    · rw [store]
      exact opened

theorem Sound.version_of_undo (sound : world.Sound initial) {tx : Transaction} {log : PendingLog}
    (bound : (world.tables number).binding = some ⟨tx, log⟩) {entry : PendingEntry}
    (mem : entry ∈ log) {place : Place} {value : Bytes}
    (restored : entry.undo place = some (some value)) : place.version ≠ tx.writePointer := by
  intro same
  have positive := sound.orderly.positive (.table number) tx
    (by simp [held, Table.transaction?, bound])
  have above : Version.zero < place.version := by
    rw [Version.lt_iff, same]
    exact positive
  have below := (sound.logged number tx log bound entry mem).le_previous_of_undo restored
  exact Version.ne_of_le_previous above below same

theorem Sound.undo_eq_captured (sound : world.Sound initial) {tx : Transaction}
    {log : PendingLog} (bound : (world.tables number).binding = some ⟨tx, log⟩)
    {entry : PendingEntry} (mem : entry ∈ log) {place : Place} (captures : place ∈ entry.captures) :
    log.findSome? (·.undo place) = (PendingLog.captured? log place).map some := by
  have made := sound.logged number tx log bound
  obtain ⟨value, restored⟩ : ∃ value, entry.undo place = some (some value) := by
    rw [entry.mem_captures_iff, entry.captured?_eq] at captures
    simpa [Option.ne_none_iff_exists', Option.join_eq_some_iff] using captures
  exact PendingLog.undo_eq_captured fun other inLog removed =>
    sound.version_of_undo bound mem restored ((made other inLog).version_of_undo_none removed)

theorem Sound.restored (sound : world.Sound initial) {tx : Transaction} {log : PendingLog}
    (bound : (world.tables number).binding = some ⟨tx, log⟩)
    (harmless : world.Harmless initial number) {place : Place} {value : Bytes}
    (undone : log.findSome? (·.undo place) = some (some value)) :
    world.Rightful initial place value := by
  have listed : (world.tables number).log = log := by simp [Table.log, bound]
  obtain ⟨entry, mem, restored⟩ := List.exists_of_findSome?_eq_some undone
  obtain ⟨seen, knows, stood⟩ := (sound.logged number tx log bound entry mem).seen_of_undo restored
  rcases knows place value stood with rightful | gone
  · exact rightful
  have captures : place ∈ entry.captures := by
    rw [entry.mem_captures_iff, entry.captured?_eq, restored]
    simp
  have captured : PendingLog.captured? log place = some value := by
    rw [sound.undo_eq_captured bound mem captures] at undone
    simpa using undone
  have same := harmless entry (by rwa [listed]) place captures gone
  rw [listed, captured] at same
  exact .inl same.symm

theorem Sound.abort (sound : world.Sound initial) {number : Nat}
    (harmless : world.Harmless initial number) :
    ((Act.abort number).run world).Sound initial := by
  cases bound : (world.tables number).binding with
  | none =>
    rw [(idle_of_unbound bound).2]
    exact sound
  | some binding =>
    obtain ⟨tx, log⟩ := binding
    have made := sound.logged number tx log bound
    obtain ⟨ends, committed, aborted, contents, unbuffered, opened⟩ := sound.abort_ends bound
    have listed : tx.writePointer ∈ ((Act.abort number).run world).aborted := by
      rw [aborted]
      exact List.mem_cons_self ..
    have kept : ∀ version ∈ world.aborted, version ∈ ((Act.abort number).run world).aborted := by
      intro version old
      rw [aborted]
      exact List.mem_cons_of_mem _ old
    apply sound.of_ends bound ends (by simp [committed]) kept (.inr listed)
    · intro place value found
      rw [contents] at found
      cases undone : log.findSome? (·.undo place) with
      | none =>
        rw [undone, Option.getD_none] at found
        rcases (sound.stored place value found).update ends.tables (by simp [committed]) with
          still | ⟨_, _, owner, _, mutation, member, _, wrote⟩
        · exact still
        · cases bound.symm.trans owner
          obtain ⟨entry, mem, sends⟩ := List.mem_filterMap.1 member
          have removed := (made entry mem).undo_of_value sends wrote
          rw [List.findSome?_eq_none_iff] at undone
          cases (undone entry mem).symm.trans removed
      | some written =>
        rw [undone, Option.getD_some] at found
        subst found
        obtain ⟨entry, mem, restored⟩ := List.exists_of_findSome?_eq_some undone
        rcases (sound.restored bound harmless undone).update ends.tables (by simp [committed]) with
          still | ⟨_, _, owner, version, _⟩
        · exact still
        · cases bound.symm.trans owner
          exact absurd version (sound.version_of_undo bound mem restored)
    · exact unbuffered
    · exact opened

theorem held_call (world : World) (number : Nat) {made : TableCall} (inside : made.isInside) :
    ((Act.call number made).run world).held = world.held := by
  have tables : ((Act.call number made).run world).tables =
      Function.update world.tables number
        ((world.tables number).perform world.store made).2.1 := rfl
  refine held_update tables rfl ?_
  cases bound : (world.tables number).binding with
  | none =>
    obtain ⟨unbound, _⟩ := Table.perform_of_unbound bound (.inl inside) world.store
    simp [Table.transaction?, bound, unbound]
  | some binding =>
    obtain ⟨longer, still⟩ := Table.bound_of_inside bound inside world.store
    simp [Table.transaction?, bound, still]

end World

namespace Act

def Harmless (initial : Contents) (world : World) : Act → Prop
  | abort number => world.Harmless initial number
  | _ => True

instance (initial : Contents) (world : World) (act : Act) :
    Decidable (act.Harmless initial world) :=
  match act with
  | abort number => inferInstanceAs (Decidable (world.Harmless initial number))
  | begin _ | start .. | call .. | commit _ => inferInstanceAs (Decidable True)

end Act

namespace World

variable {initial : Contents} {world : World}

/-- No rollback of the run writes back what has become of a transaction that was rolled back. -/
def HarmlessIn (initial : Contents) : World → List Act → Prop
  | _, [] => True
  | world, act :: rest => act.Harmless initial world ∧ HarmlessIn initial (act.run world) rest

instance decidableHarmlessIn (initial : Contents) : (world : World) → (acts : List Act) →
    Decidable (HarmlessIn initial world acts)
  | _, [] => inferInstanceAs (Decidable True)
  | world, act :: rest =>
    have := decidableHarmlessIn initial (act.run world) rest
    inferInstanceAs (Decidable (_ ∧ _))

end World

end SnapshotTable
