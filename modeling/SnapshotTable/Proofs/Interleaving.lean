import SnapshotTable.Proofs.Direct
import SnapshotTable.Proofs.Run

/-!
Two tables on one store, each with a transaction of its own, and their calls in any order. A
rollback writes the undo images of its deletes back even if the deletes never reached the store, so
it leaves the store as it is exactly if all that was captured still stands.
-/

namespace SnapshotTable

set_option autoImplicit false

/-- What an entry writes at all, it writes at the pointer, and its undoing removes what stands there
and writes nothing at the spared version. -/
structure PendingEntry.Sparing (entry : PendingEntry) (pointer spared : Version) : Prop where
  explicit : entry.Explicit
  writes : ∀ made, entry.mutation? = some made → ∀ place value,
    made.change place = some (some value) → place.version = pointer
  removes : ∀ place, entry.undo place = some none → place.version = pointer
  restores : ∀ place value, entry.undo place = some (some value) → place.version ≠ spared

/-- Every value captured for a delete of the log still stands where it was. -/
def PendingLog.StandsIn (log : PendingLog) (contents : Contents) : Prop :=
  ∀ entry ∈ log, ∀ place ∈ entry.captures, contents place = log.captured? place

instance (log : PendingLog) (contents : Contents) : Decidable (log.StandsIn contents) :=
  inferInstanceAs
    (Decidable (∀ entry ∈ log, ∀ place ∈ entry.captures, contents place = log.captured? place))

theorem PendingLog.standsIn_iff (log : PendingLog) (contents : Contents) :
    log.StandsIn contents ↔
      ∀ place, (log.captured? place).or (contents place) = contents place := by
  constructor
  · intro stands place
    cases captured : log.captured? place with
    | none => rfl
    | some value =>
      obtain ⟨entry, mem, found⟩ := List.exists_of_findSome?_eq_some captured
      have listed := (entry.mem_captures_iff place).2 (by simp [found])
      rw [stands entry mem place listed, captured]
      rfl
  · intro same entry mem place listed
    have present : log.captured? place ≠ none := by
      rw [PendingLog.captured?, ne_eq, List.findSome?_eq_none_iff]
      intro absent
      exact (entry.mem_captures_iff place).1 listed (absent entry mem)
    obtain ⟨value, captured⟩ := Option.ne_none_iff_exists'.1 present
    rw [← same place, captured]
    rfl

/-- Over a log that spares its own write pointer, the undoing of the log writes the captured values
back where nothing else stands in their way. -/
theorem PendingLog.undo_getD {log : PendingLog} {pointer : Version}
    (sparing : ∀ entry ∈ log, entry.Sparing pointer pointer) {contents : Contents}
    (absent : ∀ place : Place, place.version = pointer → contents place = none) (place : Place) :
    (log.findSome? (·.undo place)).getD (contents place) =
      (log.captured? place).or (contents place) := by
  induction log with
  | nil => rfl
  | cons entry rest ih =>
    have later := ih fun other mem => sparing other (List.mem_cons_of_mem _ mem)
    have spared := sparing entry (List.mem_cons_self ..)
    rw [captured?, List.findSome?_cons, List.findSome?_cons, entry.captured?_eq]
    cases undone : entry.undo place with
    | none => exact later
    | some written =>
      cases written with
      | some value => rfl
      | none =>
        have here := spared.removes place undone
        have nothing : rest.findSome? (·.captured? place) = none := by
          rw [List.findSome?_eq_none_iff]
          intro other mem
          cases found : other.captured? place with
          | none => rfl
          | some value =>
            rw [other.captured?_eq, Option.join_eq_some_iff] at found
            have spares := sparing other (List.mem_cons_of_mem _ mem)
            exact absurd here (spares.restores place value found)
        simp [nothing, absent place here]

theorem Prepared.sparing {tx : Transaction} {maxVersions : Nat} {store : MemoryStore}
    {mutation : Mutation} {entry : PendingEntry}
    (prepared : Prepared tx maxVersions store mutation entry)
    (ordinary : tx.writePointer ≠ .latest) {spared : Version}
    (absent : ∀ place : Place, place.version = spared → store.contents place = none) :
    entry.Sparing tx.writePointer spared where
  explicit := prepared.explicit ordinary
  writes := fun _ same _ _ change => prepared.version_of_value same change
  removes := fun place removed => prepared.undo_eq_none removed
  restores := by
    intro place value restored here
    have stood := prepared.undo_eq_value restored
    rw [absent place here] at stood
    cases stood

theorem PendingEntry.Sparing.of_get (request : Get) (pointer spared : Version) :
    (PendingEntry.get request).Sparing pointer spared where
  explicit := trivial
  writes := by
    intro made same
    cases same
  removes := by
    intro place removed
    cases removed
  restores := by
    intro place value restored
    cases restored

theorem Noted.sparing {tx : Transaction} {maxVersions : Nat} {store : MemoryStore}
    {mutations : List Mutation} {entries : List PendingEntry}
    (noted : Noted tx maxVersions store mutations entries) (ordinary : tx.writePointer ≠ .latest)
    {spared : Version}
    (absent : ∀ place : Place, place.version = spared → store.contents place = none) :
    ∀ entry ∈ entries, entry.Sparing tx.writePointer spared :=
  noted.forall_entries (fun request => .of_get request _ _)
    fun _ _ prepared => prepared.sparing ordinary absent

theorem Intake.absent {start store : MemoryStore} {taken : List Mutation}
    (intake : Intake start taken store) (unbuffered : start.Unbuffered) {spared : Version}
    (explicit : ∀ made ∈ taken, made.Explicit)
    (spares : ∀ made ∈ taken, ∀ place value, made.change place = some (some value) →
      place.version ≠ spared)
    (absent : ∀ place : Place, place.version = spared → start.contents place = none) :
    ∀ place : Place, place.version = spared → store.contents place = none := by
  intro place here
  cases found : store.contents place with
  | none => rfl
  | some value =>
    rcases intake.contents_some unbuffered.empty explicit found with stood | ⟨made, mem, wrote⟩
    · rw [absent place here] at stood
      cases stood
    · exact absurd here (spares made mem place value wrote)

structure Sharing where
  first : Table
  second : Table
  store : MemoryStore

inductive Turn where
  | first (call : TableCall)
  | second (call : TableCall)
deriving DecidableEq

namespace Turn

def run (sharing : Sharing) : Turn → Sharing
  | first call =>
    let (_, table, store) := sharing.first.perform sharing.store call
    { sharing with first := table, store := store }
  | second call =>
    let (_, table, store) := sharing.second.perform sharing.store call
    { sharing with second := table, store := store }

/-- The first table buffers and reads, and the second one also ends its transaction. -/
def isAllowed : Turn → Bool
  | first call => call.isInside && decide (call ≠ .commit)
  | second call => call.isInside || decide (call = .rollback) || decide (call = .postCommit)

end Turn

namespace Sharing

def run (sharing : Sharing) (turns : List Turn) : Sharing := turns.foldl Turn.run sharing

/-- Nothing stands at the first transaction's write pointer, and nothing that waits in either log
can bring anything there but the first transaction's own puts. -/
structure Apart (tx other : Transaction) (closed : Bool) (sharing : Sharing) : Prop where
  first : ∃ log, sharing.first.binding = some ⟨tx, log⟩ ∧
    ∀ entry ∈ log, entry.Sparing tx.writePointer tx.writePointer
  second : ∀ binding, sharing.second.binding = some binding → binding.tx = other ∧
    ∀ entry ∈ binding.log, entry.Sparing other.writePointer tx.writePointer
  absent : ∀ place : Place, place.version = tx.writePointer → sharing.store.contents place = none
  unbuffered : sharing.store.Unbuffered
  closed : sharing.store.closed = closed

namespace Apart

variable {tx other : Transaction} {closed : Bool} {sharing : Sharing}

theorem first_turn (apart : sharing.Apart tx other closed) (ordinary : tx.writePointer ≠ .latest)
    {call : TableCall} (inside : call.isInside) (unsent : call ≠ .commit) :
    (Turn.run sharing (.first call)).Apart tx other closed := by
  obtain ⟨log, bound, sparing⟩ := apart.first
  rcases Table.inside_cases bound inside sharing.store with
    ⟨kept, entries, same, noted⟩ | ⟨sent, _⟩
  · have stays : (Turn.run sharing (.first call)).store = sharing.store := kept
    refine ⟨⟨log ++ entries, ?_, ?_⟩, apart.second, stays ▸ apart.absent, stays ▸ apart.unbuffered,
      stays ▸ apart.closed⟩
    · change (sharing.first.perform sharing.store call).2.1.binding = _
      rw [same]
      exact Table.extendLog_bound bound entries
    · intro entry mem
      rcases List.mem_append.1 mem with mem | mem
      · exact sparing entry mem
      · exact noted.sparing ordinary apart.absent entry mem
  · exact absurd sent unsent

theorem of_intake (apart : sharing.Apart tx other closed) (sent : List Mutation) {next : Sharing}
    (first : next.first = sharing.first) (intake : Intake sharing.store sent next.store)
    (spares : ∀ made ∈ sent, made.Explicit ∧ ∀ place value,
      made.change place = some (some value) → place.version ≠ tx.writePointer)
    (second : ∀ binding, next.second.binding = some binding → binding.tx = other ∧
      ∀ entry ∈ binding.log, entry.Sparing other.writePointer tx.writePointer) :
    next.Apart tx other closed where
  first := first ▸ apart.first
  second := second
  absent := intake.absent apart.unbuffered (fun made mem => (spares made mem).1)
    (fun made mem => (spares made mem).2) apart.absent
  unbuffered := intake.unbuffered apart.unbuffered
  closed := intake.closed_eq.trans apart.closed

theorem of_note (apart : sharing.Apart tx other closed) (ordinary : other.writePointer ≠ .latest)
    {log : PendingLog} (bound : sharing.second.binding = some ⟨other, log⟩) {maxVersions : Nat}
    {mutations : List Mutation} {entries : List PendingEntry}
    (noted : Noted other maxVersions sharing.store mutations entries) {next : Sharing}
    (first : next.first = sharing.first) (stays : next.store = sharing.store)
    (second : next.second = sharing.second.extendLog entries) : next.Apart tx other closed := by
  refine apart.of_intake [] first (by rw [stays]; exact .refl) (by simp) fun binding still => ?_
  rw [second, Table.extendLog_bound bound] at still
  cases still
  refine ⟨rfl, fun entry mem => ?_⟩
  rcases List.mem_append.1 mem with mem | mem
  · exact (apart.second _ bound).2 entry mem
  · exact noted.sparing ordinary apart.absent entry mem

theorem second_turn (apart : sharing.Apart tx other closed)
    (ordinary : other.writePointer ≠ .latest) (distinct : tx.writePointer ≠ other.writePointer)
    {call : TableCall} (allowed : call.isInside ∨ call = .rollback ∨ call = .postCommit) :
    (Turn.run sharing (.second call)).Apart tx other closed := by
  cases bound : sharing.second.binding with
  | none =>
    obtain ⟨unbound, kept⟩ := Table.perform_of_unbound bound allowed sharing.store
    have stays : (Turn.run sharing (.second call)).store = sharing.store := kept
    refine apart.of_intake [] rfl (by rw [stays]; exact .refl) (by simp) fun binding still => ?_
    cases unbound.symm.trans still
  | some binding =>
    obtain ⟨own, log⟩ := binding
    obtain ⟨same, sparing⟩ := apart.second _ bound
    change own = other at same
    subst same
    rcases allowed with inside | rfl | rfl
    · rcases Table.inside_cases bound inside sharing.store with
        ⟨kept, entries, same, noted⟩ | ⟨rfl, same, sent, prior, sends⟩
      · exact apart.of_note ordinary bound noted rfl kept same
      · refine apart.of_intake sent rfl sends (fun made mem => ?_) fun binding still => ?_
        · obtain ⟨entry, member, made⟩ := List.mem_filterMap.1 (prior.subset mem)
          have spared := sparing entry member
          refine ⟨spared.explicit.mutation made, fun place value change here => ?_⟩
          exact distinct (here.symm.trans (spared.writes _ made place value change))
        · exact apart.second binding still
    · obtain ⟨undone, later, undoes, _⟩ := Table.compensateAll_sends own
        (fun entry mem => (sparing entry (List.mem_reverse.1 mem)).explicit) sharing.store
      have rolledBack : Turn.run sharing (.second .rollback) = { sharing with
          second := sharing.second.unbind
          store := (Table.compensateAll own log.reverse sharing.store).2 } := by
        simp only [Turn.run, Table.perform, Table.rollback, bound]
      rw [rolledBack]
      refine apart.of_intake undone rfl later (fun made mem => ?_)
        fun binding still => by cases still
      obtain ⟨explicit, entry, member, change⟩ := undoes made mem
      refine ⟨explicit, fun place value wrote => ?_⟩
      rw [change] at wrote
      exact (sparing entry (List.mem_reverse.1 member)).restores place value wrote
    · exact apart.of_intake [] rfl .refl (by simp) fun binding still => by cases still

theorem of_bind {first second firstBound secondBound : Table} {store : MemoryStore}
    (binds : first.bind tx = (.ok (), firstBound))
    (otherBinds : second.bind other = (.ok (), secondBound)) (unused : store.Unused tx.writePointer)
    (unbuffered : store.Unbuffered) :
    (Sharing.mk firstBound secondBound store).Apart tx other store.closed where
  first := ⟨[], (Underway.of_bind binds store).2.bound, by simp⟩
  second := by
    intro binding bound
    have empty := (Underway.of_bind otherBinds store).2.bound
    cases empty.symm.trans bound
    exact ⟨rfl, by simp⟩
  absent := fun _ here => unused.contents_eq_none here
  unbuffered := unbuffered
  closed := rfl

theorem run (apart : sharing.Apart tx other closed) (ordinary : tx.writePointer ≠ .latest)
    (otherOrdinary : other.writePointer ≠ .latest)
    (distinct : tx.writePointer ≠ other.writePointer) {turns : List Turn}
    (allowed : ∀ turn ∈ turns, turn.isAllowed) : (sharing.run turns).Apart tx other closed := by
  induction turns generalizing sharing with
  | nil => exact apart
  | cons turn rest ih =>
    have here := allowed turn (List.mem_cons_self ..)
    refine ih ?_ fun later mem => allowed later (List.mem_cons_of_mem _ mem)
    cases turn with
    | first call =>
      obtain ⟨inside, unsent⟩ : call.isInside ∧ call ≠ .commit := by
        simpa [Turn.isAllowed] using here
      exact apart.first_turn ordinary inside unsent
    | second call =>
      apply apart.second_turn otherOrdinary distinct
      simpa [Turn.isAllowed, or_assoc] using here

theorem rollback_contents (apart : sharing.Apart tx other false) (valid : tx.validate = .ok ())
    (place : Place) :
    (sharing.first.rollback sharing.store).2.2.contents place =
      (sharing.first.log.captured? place).or (sharing.store.contents place) := by
  obtain ⟨log, bound, sparing⟩ := apart.first
  have listed : sharing.first.log = log := by simp [Table.log, bound]
  obtain ⟨_, _, contents, _⟩ := Table.rollback_of_open bound valid
    (fun entry mem => (sparing entry mem).explicit) apart.unbuffered apart.closed
  rw [contents, listed]
  exact PendingLog.undo_getD sparing apart.absent place

end Apart

/-- The first table's transaction buffers and never commits, while the second one goes its way.
When the first one is rolled back, the store stays as it is exactly if it is closed, or if every
value that was captured for a delete still stands where it was. -/
theorem rollback_unsent_iff {first second firstBound secondBound : Table} {tx other : Transaction}
    {store : MemoryStore} {turns : List Turn} (binds : first.bind tx = (.ok (), firstBound))
    (otherBinds : second.bind other = (.ok (), secondBound))
    (distinct : tx.writePointer ≠ other.writePointer) (unused : store.Unused tx.writePointer)
    (unbuffered : store.Unbuffered) (allowed : ∀ turn ∈ turns, turn.isAllowed) :
    let ended := Sharing.run ⟨firstBound, secondBound, store⟩ turns
    (ended.first.rollback ended.store).2.2.contents = ended.store.contents ↔
      ended.store.closed ∨ ended.first.log.StandsIn ended.store.contents := by
  intro ended
  have valid := (Underway.of_bind binds store).1
  have otherValid := (Underway.of_bind otherBinds store).1
  have apart : ended.Apart tx other store.closed :=
    (Apart.of_bind binds otherBinds unused unbuffered).run
      (Transaction.validate_eq_ok_iff.1 valid).1 (Transaction.validate_eq_ok_iff.1 otherValid).1
      distinct allowed
  cases closed : ended.store.closed with
  | true =>
    obtain ⟨log, bound, _⟩ := apart.first
    have kept : (ended.first.rollback ended.store).2.2 = ended.store := by
      simp only [Table.rollback, bound]
      exact Table.compensateAll_of_closed tx closed log.reverse
    simp [kept]
  | false =>
    rw [← apart.closed, closed] at apart
    have after := apart.rollback_contents valid
    rw [PendingLog.standsIn_iff]
    constructor
    · intro same
      exact .inr fun place => (after place).symm.trans (congrFun same place)
    · rintro (impossible | stands)
      · cases impossible
      · exact funext fun place => (after place).trans (stands place)

/-- Both transactions delete a row and one of them is committed. The rollback of the other one,
which sent nothing, brings the cell back. -/
theorem rollback_unsent_brings_back_deleted :
    let store := Sample.store [{ row := "r", version := 1, value := [0x76, 0x30] }]
    let tx := Transaction.new ⟨1⟩ ⟨2⟩ []
    let other := Transaction.new ⟨1⟩ ⟨3⟩ []
    let turns : List Turn := [.first (Sample.RowWrite.deleteRow "r").call,
      .second (Sample.RowWrite.deleteRow "r").call, .second .commit, .second .postCommit]
    let shared : Sharing := ⟨(({} : Table).bind tx).2, (({} : Table).bind other).2, store⟩
    let place : Place := ⟨Bytes.ofText "r", Sample.column, ⟨1⟩⟩
    store.Unused tx.writePointer ∧ store.Unused other.writePointer ∧
      (∀ turn ∈ turns, turn.isAllowed) ∧
      (shared.run turns).store.contents place = none ∧
      ((shared.run turns).first.rollback (shared.run turns).store).2.2.contents place =
        some [0x76, 0x30] := by
  decide +kernel

/-- Where the other transaction writes beside what was captured, nothing is disturbed. -/
theorem rollback_unsent_beside_commit :
    let store := Sample.store [{ row := "r", version := 1, value := [0x76, 0x30] }]
    let tx := Transaction.new ⟨1⟩ ⟨2⟩ []
    let other := Transaction.new ⟨1⟩ ⟨3⟩ []
    let turns : List Turn := [.first (Sample.RowWrite.deleteRow "r").call,
      .second (Sample.RowWrite.put "r" "c" [5]).call, .second .commit, .second .postCommit]
    let shared : Sharing := ⟨(({} : Table).bind tx).2, (({} : Table).bind other).2, store⟩
    ((shared.run turns).first.rollback (shared.run turns).store).2.2.contents =
      (shared.run turns).store.contents := by
  intro store tx other turns shared
  have binds : ({} : Table).bind tx = (.ok (), (({} : Table).bind tx).2) := by decide
  have otherBinds : ({} : Table).bind other = (.ok (), (({} : Table).bind other).2) := by decide
  have unbuffered : store.Unbuffered := ⟨by decide +kernel, by decide +kernel⟩
  have stands : (shared.run turns).first.log.StandsIn (shared.run turns).store.contents := by
    decide +kernel
  exact (rollback_unsent_iff binds otherBinds (by decide) (by decide) unbuffered (by decide)).2
    (.inr stands)

end Sharing

end SnapshotTable
