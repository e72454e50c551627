import SnapshotTable.Proofs.Run

/-!
Rollback over a store whose writes and flushes may fail. Every write of the log is undone by one
store call, the newest first, whatever became of the calls before it; what failed is counted; and a
row all of whose own calls went through holds what it held at bind.
-/

namespace SnapshotTable

set_option autoImplicit false

namespace FaultyStore

/-- The error with which the write of a number fails, if it is a put of some cells or a delete. -/
def refusal? (store : FaultyStore MemoryStore) (number : Nat) : Option StoreError :=
  if store.failAllWrites || store.failingWrites.contains number then some (injected "write")
  else if store.inner.closed then some .closed
  else none

def flushRefusal? (store : FaultyStore MemoryStore) : Option StoreError :=
  if store.failFlush then some (injected "flush")
  else if store.inner.closed then some .closed
  else none

def refusals (store : FaultyStore MemoryStore) (count : Nat) : List StoreError :=
  (List.range' store.writesSeen count).filterMap store.refusal? ++ store.flushRefusal?.toList

end FaultyStore

/-- The entries for which rollback sends something, in the order in which it does. -/
def PendingLog.undone (log : PendingLog) : List PendingEntry := log.reverse.filter (·.isUndone)

namespace FaultyStore

variable {store next : FaultyStore MemoryStore}

theorem perform_of_fault {call : StoreCall} {error : StoreError}
    (fault : store.fault? call = some error) :
    CellStore.perform call store = (.error error, store.record call) := by
  change FaultyStore.perform call store = _
  simp only [perform, fault]

theorem perform_of_no_fault {call : StoreCall} (sound : store.fault? call = none) :
    CellStore.perform call store =
      ((store.inner.perform call).1,
        { store.record call with inner := (store.inner.perform call).2 }) := by
  change FaultyStore.perform call store = _
  simp only [perform, sound]
  rfl

theorem perform_mutation (store : FaultyStore MemoryStore) {mutation : Mutation}
    (nonempty : mutation.HasCells) :
    (∃ error, store.refusal? store.writesSeen = some error ∧
        CellStore.perform mutation.call store = (.error error, store.record mutation.call)) ∨
      (store.refusal? store.writesSeen = none ∧ ∃ reply,
        CellStore.perform mutation.call store =
          (.ok reply, { store.record mutation.call with inner := store.inner.accept mutation })) := by
  have fault : store.fault? mutation.call =
      if store.failAllWrites || store.failingWrites.contains store.writesSeen then
        some (injected "write")
      else none := by
    cases mutation <;> rfl
  by_cases failing : store.failAllWrites || store.failingWrites.contains store.writesSeen
  · rw [if_pos failing] at fault
    exact .inl ⟨_, by rw [refusal?, if_pos failing], perform_of_fault fault⟩
  · rw [if_neg failing] at fault
    rw [perform_of_no_fault fault]
    by_cases closed : store.inner.closed
    · refine .inl ⟨.closed, by rw [refusal?, if_neg failing, if_pos closed], ?_⟩
      rw [MemoryStore.perform_mutation_of_closed closed]
      rfl
    · obtain ⟨reply, performed⟩ :=
        MemoryStore.perform_mutation_of_open (by simpa using closed) nonempty
      refine .inr ⟨by rw [refusal?, if_neg failing, if_neg closed], reply, ?_⟩
      rw [performed]

theorem perform_flush (store : FaultyStore MemoryStore) :
    (∃ error, store.flushRefusal? = some error ∧
        CellStore.perform .flush store = (.error error, store.record .flush)) ∨
      (store.flushRefusal? = none ∧ CellStore.perform .flush store =
        (.ok (), { store.record .flush with inner := store.inner.flushBuffer })) := by
  by_cases failing : store.failFlush
  · have fault : store.fault? .flush = some (injected "flush") := if_pos failing
    exact .inl ⟨_, by rw [flushRefusal?, if_pos failing], perform_of_fault fault⟩
  · have fault : store.fault? .flush = none := if_neg failing
    rw [perform_of_no_fault fault]
    by_cases closed : store.inner.closed
    · refine .inl ⟨.closed, by rw [flushRefusal?, if_neg failing, if_pos closed], ?_⟩
      simp only [MemoryStore.perform, closed, if_true]
      rfl
    · refine .inr ⟨by rw [flushRefusal?, if_neg failing, if_neg closed], ?_⟩
      rw [MemoryStore.perform_flush_of_open (by simpa using closed)]

/-- The store after one more write, which may have failed. -/
structure Follows (next store : FaultyStore MemoryStore) : Prop where
  refusal : next.refusal? = store.refusal?
  flushRefusal : next.flushRefusal? = store.flushRefusal?
  seen : next.writesSeen = store.writesSeen + 1

theorem follows_record (store : FaultyStore MemoryStore) (mutation : Mutation) :
    (store.record mutation.call).Follows store :=
  ⟨rfl, rfl, by cases mutation <;> rfl⟩

theorem follows_accept (store : FaultyStore MemoryStore) (mutation : Mutation) :
    Follows { store.record mutation.call with inner := store.inner.accept mutation } store where
  refusal := by
    funext number
    simp only [refusal?, record, MemoryStore.closed_accept]
  flushRefusal := by simp only [flushRefusal?, record, MemoryStore.closed_accept]
  seen := by cases mutation <;> rfl

theorem Follows.refusals_succ (follows : next.Follows store) (count : Nat) :
    store.refusals (count + 1) =
      (store.refusal? store.writesSeen).toList ++ next.refusals count := by
  rw [refusals, refusals, follows.refusal, follows.flushRefusal, follows.seen, List.range'_succ,
    ← List.append_assoc]
  cases refused : store.refusal? store.writesSeen <;> simp [refused]

end FaultyStore

namespace Table

/-- What becomes of an entry in a rollback: there is nothing to send for it, or its call fails, or
the store inside takes the call in. -/
inductive Compensated (tx : Transaction) (entry : PendingEntry) (store : FaultyStore MemoryStore) :
    Option TableError → FaultyStore MemoryStore → Prop
  | skipped : entry.isUndone = false → (∀ place, entry.undo place = none) →
    Compensated tx entry store none store
  | refused {mutation : Mutation} {error : StoreError} : entry.isUndone →
    entry.undoCall? tx = .ok (some mutation.call) →
    store.refusal? store.writesSeen = some error →
    Compensated tx entry store (some (.store error)) (store.record mutation.call)
  | made {mutation : Mutation} : entry.isUndone →
    entry.undoCall? tx = .ok (some mutation.call) →
    store.refusal? store.writesSeen = none →
    Compensated tx entry store none
      { store.record mutation.call with inner := store.inner.accept mutation }

theorem compensate_cases {tx : Transaction} (valid : tx.validate = .ok ()) (entry : PendingEntry)
    (store : FaultyStore MemoryStore) :
    Compensated tx entry store (compensate tx entry store).1 (compensate tx entry store).2 := by
  rcases entry.undoCall?_of_valid valid with ⟨idle, call, nothing⟩ | ⟨undone, mutation, call, some⟩
  · simp only [compensate, call]
    exact .skipped idle nothing
  · rcases store.perform_mutation some with ⟨error, refusal, performed⟩ | ⟨free, reply, performed⟩
    · simp only [compensate, call, performed]
      exact .refused undone call refusal
    · simp only [compensate, call, performed]
      exact .made undone call free

/-- Whatever fails, every entry that rollback has something to send for gets its call, in order, a
flush follows, and each call that fails is reported. -/
theorem compensateAll_calls {tx : Transaction} (valid : tx.validate = .ok ())
    (entries : List PendingEntry) (store : FaultyStore MemoryStore) : ∃ writes : List Mutation,
      List.Forall₂ (fun entry write => entry.undoCall? tx = .ok (some write.call))
        (entries.filter (·.isUndone)) writes ∧
      (compensateAll tx entries store).2.calls =
        store.calls ++ (writes.map (·.call) ++ [.flush]) ∧
      (compensateAll tx entries store).1 = (store.refusals writes.length).map .store := by
  induction entries generalizing store with
  | nil =>
    refine ⟨[], .nil, ?_⟩
    rw [compensateAll]
    rcases store.perform_flush with ⟨error, refusal, performed⟩ | ⟨free, performed⟩
    · rw [performed]
      exact ⟨rfl, by simp [FaultyStore.refusals, refusal]⟩
    · rw [performed]
      exact ⟨rfl, by simp [FaultyStore.refusals, free]⟩
  | cons entry rest ih =>
    have cases := compensate_cases valid entry store
    rw [compensateAll]
    generalize compensate tx entry store = outcome at cases ⊢
    obtain ⟨failure, next⟩ := outcome
    obtain ⟨writes, undoes, recorded, failures⟩ := ih next
    dsimp only at cases ⊢
    cases cases with
    | skipped idle =>
      exact ⟨writes, by simpa [idle] using undoes, recorded, failures⟩
    | @refused mutation error undone call refusal =>
      refine ⟨mutation :: writes, ?_, ?_, ?_⟩
      · rw [List.filter_cons_of_pos undone]
        exact .cons call undoes
      · rw [recorded, FaultyStore.record, List.append_assoc]
        rfl
      · rw [failures, List.length_cons, (store.follows_record mutation).refusals_succ, refusal]
        rfl
    | @made mutation undone call free =>
      refine ⟨mutation :: writes, ?_, ?_, ?_⟩
      · rw [List.filter_cons_of_pos undone]
        exact .cons call undoes
      · rw [recorded, FaultyStore.record, List.append_assoc]
        rfl
      · rw [failures, List.length_cons, (store.follows_accept mutation).refusals_succ, free]
        rfl

theorem free_of_follows {entry : PendingEntry} {rest : List PendingEntry} {place : Place}
    {store next : FaultyStore MemoryStore} (undone : entry.isUndone) (follows : next.Follows store)
    (free : ∀ numbered ∈ ((entry :: rest).filter (·.isUndone)).zipIdx store.writesSeen,
      numbered.1.undo place ≠ none → store.refusal? numbered.2 = none) :
    (entry.undo place ≠ none → store.refusal? store.writesSeen = none) ∧
      ∀ numbered ∈ (rest.filter (·.isUndone)).zipIdx next.writesSeen,
        numbered.1.undo place ≠ none → next.refusal? numbered.2 = none := by
  rw [List.filter_cons_of_pos undone, List.zipIdx_cons] at free
  refine ⟨free _ (List.mem_cons_self ..), fun numbered mem => ?_⟩
  rw [follows.seen] at mem
  rw [follows.refusal]
  exact free numbered (List.mem_cons_of_mem _ mem)

/-- A place stands as if everything had been undone if all that touches it went through. -/
theorem compensateAll_contents {tx : Transaction} (valid : tx.validate = .ok ())
    {entries : List PendingEntry} (explicit : ∀ entry ∈ entries, entry.Explicit)
    {store : FaultyStore MemoryStore} (unbuffered : store.inner.Unbuffered) {place : Place}
    (free : ∀ numbered ∈ (entries.filter (·.isUndone)).zipIdx store.writesSeen,
      numbered.1.undo place ≠ none → store.refusal? numbered.2 = none) :
    (compensateAll tx entries store).2.inner.contents place =
      store.inner.contents.applyAll (entries.map (·.undo)) place := by
  induction entries generalizing store with
  | nil =>
    have flushed := (Intake.refl.flush : Intake store.inner [] store.inner.flushBuffer).contents_eq
      unbuffered.empty (MemoryStore.buffer_flushBuffer _) (by simp)
    rw [compensateAll]
    rcases store.perform_flush with ⟨error, _, performed⟩ | ⟨_, performed⟩
    · rw [performed]
      rfl
    · rw [performed]
      exact congrFun flushed place
  | cons entry rest ih =>
    have cases := compensate_cases valid entry store
    have others : ∀ other ∈ rest, other.Explicit := fun other mem =>
      explicit other (List.mem_cons_of_mem _ mem)
    rw [compensateAll]
    generalize compensate tx entry store = outcome at cases ⊢
    obtain ⟨failure, next⟩ := outcome
    dsimp only at cases ⊢
    have headed : store.inner.contents.applyAll ((entry :: rest).map (·.undo)) =
        (store.inner.contents.apply entry.undo).applyAll (rest.map (·.undo)) := rfl
    rw [headed]
    cases cases with
    | skipped idle nothing =>
      rw [ih others unbuffered (by simpa [idle] using free)]
      refine Contents.applyAll_congr ?_ _
      simp [Contents.apply, nothing]
    | @refused mutation error undone call refusal =>
      obtain ⟨here, later⟩ := free_of_follows undone (store.follows_record mutation) free
      have untouched : entry.undo place = none := by
        by_contra touched
        have through := here touched
        rw [refusal] at through
        cases through
      have kept : (store.record mutation.call).inner.Unbuffered := unbuffered
      rw [ih others kept later]
      refine Contents.applyAll_congr ?_ _
      simp [Contents.apply, untouched, FaultyStore.record]
    | @made mutation undone call _ =>
      obtain ⟨_, later⟩ := free_of_follows undone (store.follows_accept mutation) free
      obtain ⟨same, ordinary⟩ :=
        PendingEntry.change_of_undoCall? (explicit entry (List.mem_cons_self ..)) call
      have accepted := (Intake.refl.accept mutation).contents_eq unbuffered.empty
        (unbuffered.accept mutation).empty (by simpa using ordinary)
      rw [ih others (unbuffered.accept mutation) later]
      refine Contents.applyAll_congr ?_ _
      rw [← same]
      exact congrFun accepted place

end Table

/-- Each column of the row holds at most so many versions below the pointer. -/
def MemoryStore.RowWithin (store : MemoryStore) (row : Bytes) (pointer : Version) (bound : Nat) :
    Prop :=
  ∀ held ∈ store.columns, held.1 = row →
    (held.2.2.keys.filter fun version => decide (version < pointer)).length ≤ bound

theorem MemoryStore.VersionsWithin.rowWithin {store : MemoryStore} {bound : Nat}
    (within : store.VersionsWithin bound) (row : Bytes) (pointer : Version) :
    store.RowWithin row pointer bound := by
  intro held mem _
  have whole : held.2.2.keys.length ≤ bound := by
    rw [SortedMap.keys, List.length_map]
    exact within held mem
  exact Nat.le_trans (List.length_filter_le ..) whole

theorem MemoryStore.RowWithin.fewAbove {store : MemoryStore} {pointer : Version} {bound : Nat}
    {place : Place} (within : store.RowWithin place.row pointer bound) {value : Bytes}
    (stood : store.contents place = some value) (below : place.version < pointer) :
    store.contents.FewAbove (fun version => decide (version ≤ pointer.previous)) place bound := by
  intro above distinct inside
  obtain ⟨versions, held, found⟩ := mem_columns_of_contents stood
  have member : ∀ {version : Version} {value : Bytes}, versions.find? version = some value →
      version < pointer →
        version ∈ versions.keys.filter fun version => decide (version < pointer) := by
    intro version value found below
    have listed := List.mem_map_of_mem (f := (·.1)) ((SortedMap.mem_entries_iff ..).2 found)
    exact List.mem_filter.2 ⟨listed, by simpa using below⟩
  have here : place.version ∉ above := by
    intro mem
    have newer := Version.lt_iff.1 (inside place.version mem).1
    omega
  have stored : ∀ version ∈ place.version :: above,
      version ∈ versions.keys.filter fun version => decide (version < pointer) := by
    intro version mem
    rcases List.mem_cons.1 mem with rfl | mem
    · exact member found below
    · obtain ⟨newer, admitted, present⟩ := inside version mem
      have le : version ≤ pointer.previous := by simpa using admitted
      obtain ⟨value, there⟩ := Option.isSome_iff_exists.1 present
      rw [contents_of_mem_columns held] at there
      exact member there (Version.lt_of_le_of_ne
        (Version.le_iff.2 (Nat.le_trans (Version.le_iff.1 le)
          (Version.le_iff.1 (Version.previous_le _)))) (Version.ne_of_le_previous newer le))
  have room := List.Nodup.length_le_of_subset (List.nodup_cons.2 ⟨here, distinct⟩) stored
  rw [List.length_cons] at room
  exact Nat.lt_of_lt_of_le room (within _ held rfl)

theorem Prepared.row_of_undo {tx : Transaction} {maxVersions : Nat} {store : MemoryStore}
    {mutation : Mutation} {entry : PendingEntry}
    (prepared : Prepared tx maxVersions store mutation entry) {place : Place}
    (touched : entry.undo place ≠ none) : place.row = entry.row := by
  by_contra other
  cases prepared with
  | put =>
    refine touched (if_neg ?_)
    rintro ⟨row, _⟩
    exact other row
  | @delete request stamped read captured stamp =>
    have row : (store.get read).row = stamped.row := by
      rw [store.row_get, (Transaction.preImageGet_ok captured).1,
        (Transaction.stampDelete_ok stamp).1]
    rw [PendingEntry.row, ← row] at other
    exact touched (if_neg other)

namespace Written

variable {start : MemoryStore} {tx : Transaction} {maxVersions : Nat} {log : PendingLog}
  {writes : List Mutation}

theorem row_of_undo (written : Written start tx maxVersions log writes) {entry : PendingEntry}
    (mem : entry ∈ log) {place : Place} (touched : entry.undo place ≠ none) :
    place.row = entry.row := by
  induction written with
  | empty => cases mem
  | read request _ ih =>
    rcases List.mem_append.1 mem with mem | mem
    · exact ih mem
    · rw [List.mem_singleton.1 mem] at touched
      exact absurd rfl touched
  | write _ _ _ prepared ih =>
    rcases List.mem_append.1 mem with mem | mem
    · exact ih mem
    · rw [List.mem_singleton.1 mem] at touched ⊢
      exact prepared.row_of_undo touched

theorem delete_of_touched (written : Written start tx maxVersions log writes) {place : Place}
    (other : place.version ≠ tx.writePointer)
    (touched : ∃ made ∈ log.mutations, made.change place ≠ none) :
    place.version < tx.writePointer ∧ ∃ request preImage undoImage,
      PendingEntry.delete request preImage undoImage ∈ log ∧ place.row = request.row := by
  obtain ⟨made, mem, touched⟩ := touched
  have listed : made.change ∈ writes.map (·.changeAt tx.writePointer) := by
    rw [← written.changes_eq]
    exact List.mem_map_of_mem mem
  obtain ⟨asked, _, same⟩ := List.mem_map.1 listed
  obtain ⟨entry, member, sends⟩ := List.mem_filterMap.1 mem
  rw [← same] at touched
  cases asked with
  | put write => simp [Mutation.changeAt, other] at touched
  | delete removal =>
    obtain ⟨row, below, names⟩ : place.row = removal.row ∧ place.version ≤ tx.writePointer ∧
        removal.names place.column := by
      by_contra absent
      exact touched (if_neg absent)
    have removes : made.change place = some none := by
      rw [← same, Mutation.changeAt, if_pos ⟨row, below, names⟩]
    refine ⟨Version.lt_of_le_of_ne below other, ?_⟩
    cases entry with
    | get request => cases sends
    | put request =>
      cases sends
      simp only [Mutation.change] at removes
      split at removes <;> simp at removes
    | delete request preImage undoImage =>
      cases sends
      refine ⟨request, preImage, undoImage, member, ?_⟩
      by_contra away
      simp [Mutation.change, away] at removes

end Written

theorem Underway.row_restored {start : MemoryStore} {tx : Transaction} {maxVersions : Nat}
    {log : PendingLog} {writes : List Mutation} {table : Table} {store : FaultyStore MemoryStore}
    (under : Underway start tx maxVersions log writes table store.inner)
    (valid : tx.validate = .ok ()) (unbuffered : start.Unbuffered)
    (unused : start.Unused tx.writePointer) {row : Bytes}
    (within : ∀ request preImage undoImage, PendingEntry.delete request preImage undoImage ∈ log →
      request.row = row → start.RowWithin row tx.writePointer maxVersions)
    (free : ∀ numbered ∈ log.undone.zipIdx store.writesSeen, numbered.1.row = row →
      store.refusal? numbered.2 = none) {place : Place} (here : place.row = row) :
    (table.rollback store).2.2.inner.contents place = start.contents place := by
  obtain ⟨sent, intake, own⟩ := under.intake
  have ordinary := (Transaction.validate_eq_ok_iff.1 valid).1
  have explicit := under.written.explicit ordinary
  have through : ∀ numbered ∈ log.undone.zipIdx store.writesSeen,
      numbered.1.undo place ≠ none → store.refusal? numbered.2 = none := by
    intro numbered mem touched
    have member := List.mem_reverse.1 (List.mem_filter.1 (List.fst_mem_of_mem_zipIdx mem)).1
    have row := under.written.row_of_undo member touched
    exact free numbered mem (row.symm.trans here)
  have undone := Table.compensateAll_contents valid
    (fun entry mem => explicit entry (List.mem_reverse.1 mem)) (intake.unbuffered unbuffered)
    through
  have before := intake.contents_eq unbuffered.empty (intake.unbuffered unbuffered).empty
    fun made mem => under.written.explicit_mutations ordinary made (own made mem)
  rw [PendingLog.applyAll_undo, before] at undone
  simp only [Table.rollback, under.bound]
  rw [undone]
  have restores := under.written.restores unbuffered.empty ordinary own place
  cases stood : start.contents place with
  | some value =>
    have other : place.version ≠ tx.writePointer := fun same => by
      rw [unused.contents_eq_none same] at stood
      cases stood
    refine (restores value).2 stood other fun touched => ?_
    obtain ⟨below, request, preImage, undoImage, member, same⟩ :=
      under.written.delete_of_touched other touched
    have fits := within request preImage undoImage member (same.symm.trans here)
    rw [← here] at fits
    exact fits.fewAbove stood below
  | none =>
    cases after : (log.findSome? (·.undo place)).getD
        (start.contents.applyAll (sent.map (·.change)) place) with
    | none => rfl
    | some value =>
      have impossible := (restores value).1 after
      rw [stood] at impossible
      cases impossible

/-- A rollback sends one write for every logged put and every logged delete that captured anything,
the newest first, and then a flush; it leaves the table without a transaction, and reports how many
of these calls failed and the first failure. If the transaction was the only one to write since
bind, with nothing at its write pointer and room in its undo images, then a row none of whose own
writes failed holds the cells that it held at bind. -/
theorem rollback_best_effort {site : Site} {tx : Transaction} {log : PendingLog}
    (bound : site.1.binding = some ⟨tx, log⟩) (valid : tx.validate = .ok ()) :
    let ended := site.1.rollback site.2
    let failures := site.2.refusals log.undone.length
    (∃ writes : List Mutation,
      List.Forall₂ (fun entry write => entry.undoCall? tx = .ok (some write.call)) log.undone
        writes ∧
      ended.2.2.calls = site.2.calls ++ (writes.map (·.call) ++ [.flush])) ∧
    (ended.2.1.state = .unbound ∧ ended.2.1.log = []) ∧
    (failures = [] → ended.1 = .ok ()) ∧
    (∀ first rest, failures = first :: rest →
      ended.1 = .error (.rollbackPartialFailure failures.length (.store first))) ∧
    ∀ (table fresh : Table) (start : FaultyStore MemoryStore) (steps : List Step),
      table.bind tx = (.ok (), fresh) → (∀ step ∈ steps, step.isInside) →
      Site.run (fresh, start) steps = site → start.inner.Unbuffered →
      start.inner.Unused tx.writePointer →
      (∀ request preImage undoImage, PendingEntry.delete request preImage undoImage ∈ log →
        start.inner.RowWithin request.row tx.writePointer table.config.preImageMaxVersions) →
      ∀ row, (∀ numbered ∈ log.undone.zipIdx site.2.writesSeen, numbered.1.row = row →
        site.2.refusal? numbered.2 = none) →
      ∀ place : Place, place.row = row →
        ended.2.2.inner.contents place = start.inner.contents place := by
  intro ended failures
  obtain ⟨writes, undoes, recorded, reported⟩ :=
    Table.compensateAll_calls valid log.reverse site.2
  have rolledBack : ended = (Table.rollbackResult (failures.map .store), site.1.unbind,
      (Table.compensateAll tx log.reverse site.2).2) := by
    simp only [ended, Table.rollback, bound, reported, failures, ← undoes.length_eq,
      PendingLog.undone]
  refine ⟨⟨writes, undoes, by rw [rolledBack]; exact recorded⟩, by rw [rolledBack]; exact ⟨rfl, rfl⟩,
    fun none => by rw [rolledBack, none]; rfl, fun first rest some => ?_, ?_⟩
  · rw [rolledBack, some]
    simp [Table.rollbackResult]
  intro table fresh start steps binds inside reached unbuffered unused within row free place here
  obtain ⟨_, logged, under⟩ := Underway.of_run binds start inside
  rw [reached] at under
  have same : logged = log := by
    have both := under.bound.symm.trans bound
    cases both
    rfl
  subst same
  refine under.row_restored valid unbuffered unused (fun request preImage undoImage mem same => ?_)
    free here
  exact same ▸ within request preImage undoImage mem

/-- The undoing of the last put fails, and so does the flush; the other row is as it was. -/
theorem rollback_best_effort_past_two_failures :
    let tx := Transaction.new ⟨2⟩ ⟨5⟩ []
    let fresh := Sample.site tx
      [{ row := "a", version := 1, value := [1] }, { row := "b", version := 1, value := [2] }]
    let steps : List Step := [.call (Sample.RowWrite.put "a" "d" [3]).call,
      .call (Sample.RowWrite.deleteRow "a").call, .call (Sample.RowWrite.put "b" "c" [4]).call,
      .call .commit, .set (.failWrite 3), .set (.failFlush true)]
    let ended := (fresh.run steps).1.rollback (fresh.run steps).2
    ended.1 = .error (.rollbackPartialFailure 2 (.store (FaultyStore.injected "write"))) ∧
      ∀ place : Place, place.row = Bytes.ofText "a" →
        ended.2.2.inner.contents place = fresh.2.inner.contents place := by
  intro tx fresh steps ended
  have binds : ({} : Table).bind tx = (.ok (), fresh.1) := by decide
  have bound : (fresh.run steps).1.binding = some ⟨tx, (fresh.run steps).1.log⟩ := by
    decide +kernel
  have inside : ∀ step ∈ steps, step.isInside := by decide
  have unbuffered : fresh.2.inner.Unbuffered := ⟨by decide +kernel, by decide +kernel⟩
  have unused : fresh.2.inner.Unused tx.writePointer := by decide
  have within : fresh.2.inner.VersionsWithin 4294967295 := by decide +kernel
  have failures : (fresh.run steps).2.refusals (fresh.run steps).1.log.undone.length =
      [FaultyStore.injected "write", FaultyStore.injected "flush"] := by decide +kernel
  have free : ∀ numbered ∈ (fresh.run steps).1.log.undone.zipIdx (fresh.run steps).2.writesSeen,
      numbered.1.row = Bytes.ofText "a" → (fresh.run steps).2.refusal? numbered.2 = none := by
    decide +kernel
  obtain ⟨_, _, _, reported, restored⟩ := rollback_best_effort bound (by decide)
  have same : (fresh.run steps).1.rollback (fresh.run steps).2 = ended := rfl
  have result := reported _ _ failures
  have kept := restored {} fresh.1 fresh.2 steps binds inside rfl unbuffered unused
    (fun request _ _ _ => within.rowWithin _ _) (Bytes.ofText "a") free
  rw [same] at result kept
  rw [failures] at result
  exact ⟨result, kept⟩

end SnapshotTable
