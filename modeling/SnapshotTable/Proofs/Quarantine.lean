import SnapshotTable.Proofs.History
import SnapshotTable.Proofs.Reading
import SnapshotTable.Proofs.Run

/-!
A coordinator's commit over a store that may fail. It succeeds with everything written and one
record of it, or it fails; then its writes are undone, or, where that fails too, no snapshot that is
taken from then on shows them.
-/

namespace SnapshotTable

set_option autoImplicit false

theorem FaultyStore.calls_perform {σ : Type} [CellStore σ] (call : StoreCall)
    (store : FaultyStore σ) : (CellStore.perform call store).2.calls = store.calls ++ [call] := by
  change (FaultyStore.perform call store).2.calls = _
  rw [FaultyStore.perform]
  split <;> rfl

namespace Table

theorem calls_replay {σ : Type} [CellStore σ] (log : PendingLog) {store : FaultyStore σ}
    (succeeded : (replay log store).1 = .ok ()) :
    (replay log store).2.calls = store.calls ++ (log.mutations.map (·.call) ++ [.flush]) := by
  induction log generalizing store with
  | nil => exact FaultyStore.calls_perform .flush store
  | cons entry rest ih =>
    rw [replay, PendingEntry.commitCall?_eq] at succeeded ⊢
    cases made : entry.mutation? with
    | none =>
      simp only [made, Option.map_none] at succeeded ⊢
      rw [ih succeeded]
      simp [PendingLog.mutations, made]
    | some mutation =>
      have recorded := FaultyStore.calls_perform mutation.call store
      simp only [made, Option.map_some] at succeeded ⊢
      split at succeeded
      · cases succeeded
      · rename_i next eq
        rw [eq] at recorded
        simp only [] at recorded
        rw [ih succeeded, recorded]
        simp [PendingLog.mutations, made]

theorem calls_commit {σ : Type} [CellStore σ] {table : Table} {tx : Transaction} {log : PendingLog}
    (bound : table.binding = some ⟨tx, log⟩) {store : FaultyStore σ}
    (succeeded : (table.commit store).1 = .ok ()) :
    (table.commit store).2.calls =
      store.calls ++ (table.log.mutations.map (·.call) ++ [.flush]) := by
  have same : table.log = log := by simp [Table.log, bound]
  simp only [commit, bound] at succeeded ⊢
  rw [same]
  apply calls_replay
  cases result : (replay log store).1 with
  | ok _ => rfl
  | error error =>
    rw [result] at succeeded
    cases succeeded

end Table

namespace Coordinator

section Commit

variable {σ : Type} [CellStore σ] {site : Table × σ} {tx : Transaction} {log : PendingLog}
  (bound : site.1.binding = some ⟨tx, log⟩) (valid : tx.validate = .ok ())

include bound valid

/-- The coordinator's commit of a bound table has the result of the table's own commit and unbinds
the table. It records the transaction's descriptor, or it rolls the table back. -/
theorem commit_of_bound (coordinator : Coordinator) :
    let attempt := site.1.commit site.2
    let ended := coordinator.commit tx site
    ended.1 = attempt.1 ∧ ended.2.1.1 = site.1.unbind ∧
      (attempt.1 = .ok () → ended.2.1.2 = attempt.2 ∧
        ended.2.2 = coordinator.finish tx.writePointer .committed [(Descriptor.wire tx).write]) ∧
      ∀ error, attempt.1 = .error error → ended.2.1.2 = (site.1.rollback attempt.2).2.2 ∧
        ended.2.2 = coordinator.finish tx.writePointer (.ofRollback (site.1, attempt.2)) [] := by
  intro attempt ended
  rcases commit_cases bound valid coordinator with ⟨done, same⟩ | ⟨error, failed, same⟩
  · have recorded : ended.2.2 =
        coordinator.finish tx.writePointer .committed [(Descriptor.wire tx).write] := by
      simp only [ended, same, finish, reduceCtorEq, if_false, if_true]
    refine ⟨?_, ?_, fun _ => ⟨?_, recorded⟩, fun error failed => ?_⟩
    · simp only [ended, attempt, same, done]
    · simp only [ended, same]
    · simp only [ended, attempt, same]
    · cases done.symm.trans failed
  · have unbound : (site.1.rollback attempt.2).2.1 = site.1.unbind := by
      simp only [Table.rollback, bound]
    have back : ended.2.1 = (site.1.rollback attempt.2).2 := by
      simp only [ended, same]
      exact abort_participant ..
    have aborted : ended.2.2 =
        coordinator.finish tx.writePointer (.ofRollback (site.1, attempt.2)) [] := by
      simp only [ended, same]
      exact abort_eq_finish ..
    refine ⟨?_, by rw [back, unbound], fun done => ?_, fun _ _ => ⟨by rw [back], aborted⟩⟩
    · simp only [ended, attempt, same, failed]
    · cases done.symm.trans failed

end Commit

/-- No snapshot that is taken from now on shows the version, whatever calls come before it: the
transaction does not see it, and no reading call of a table that is bound to it returns a cell of
it. -/
structure Quarantined (coordinator : Coordinator) (version : Version) : Prop where
  invalid : coordinator.invalid.contains version
  unseen : ∀ later : List CoordinatorCall, (coordinator.run later).begin.1.sees version = false
  unread : ∀ (later : List CoordinatorCall) {σ : Type} [CellStore σ] [MemoryLayer σ] (table : Table)
    (log : PendingLog) (store : σ) (call : TableCall) (reply : call.Reply),
    table.binding = some ⟨(coordinator.run later).begin.1, log⟩ →
      (table.perform store call).1 = .ok reply →
        ∀ result ∈ call.rows reply, ∀ cell ∈ result.cells, cell.version ≠ version

theorem Quarantined.of_invalid {coordinator : Coordinator} {version : Version}
    (invalid : coordinator.invalid.contains version) : coordinator.Quarantined version := by
  have unseen : ∀ later : List CoordinatorCall,
      (coordinator.run later).begin.1.sees version = false := by
    intro later
    have still : (coordinator.run later).invalid.contains version :=
      (invalid_run ..).2 (.inl invalid)
    rw [Transaction.sees, excludes_begin, still, Bool.or_true, Bool.not_true, Bool.and_false]
  refine ⟨invalid, unseen, ?_⟩
  intro later σ _ _ table log store call reply bound read result mem cell inside same
  have seen := Table.sees_of_read bound read result mem cell inside
  rw [same, unseen later] at seen
  cases seen

theorem changesOf?_finish {coordinator : Coordinator} {pointer : Version}
    (first : pointer ∉ coordinator.committedPointers) (changes : List Bytes) :
    (coordinator.finish pointer .committed changes).changesOf? pointer = some changes := by
  have absent : coordinator.committed.find? (·.1 == pointer) = none := by
    rw [List.find?_eq_none]
    intro record mem same
    exact first (List.mem_map.2 ⟨record, mem, by simpa using same⟩)
  simp [changesOf?, finish, absent]

/-- A transaction that a coordinator began is bound to a table over a store that flushes by itself
but may fail, with no cell at the write pointer and with undo images that hold every version. After
any reads, writes, attempts to commit and faults, the coordinator commits it. If that succeeds, the
store was sent the whole log and a flush, holds the writes of the transaction applied in order, and
one record more is kept, which decodes to the transaction. If it fails, the error is that of the
table's commit, and either the rollback had no failure and the cells are those from before, or the
write pointer is invalid and out of sight from then on. In any case the transaction is not in
progress any more and the table has none. -/
theorem commit_undone_or_quarantined (coordinator : Coordinator) (between : List CoordinatorCall)
    {table bound : Table} {store : FaultyStore MemoryStore} {steps : List Step}
    (binds : table.bind coordinator.begin.1 = (.ok (), bound))
    (unbuffered : store.inner.Unbuffered)
    (unused : store.inner.Unused coordinator.begin.1.writePointer)
    (within : store.inner.VersionsWithin table.config.preImageMaxVersions)
    (inside : ∀ step ∈ steps, step.isInside) :
    let tx := coordinator.begin.1
    let site := Site.run (bound, store) steps
    let attempt := site.1.commit site.2
    let before := coordinator.begin.2.run between
    let ended := before.commit tx site
    ended.1 = attempt.1 ∧
      ended.2.1.1.state = .unbound ∧ ended.2.1.1.log = [] ∧
      ended.2.2.inProgress.contains tx.writePointer = false ∧
      (ended.1 = .ok () →
        ended.2.1.2.calls = site.2.calls ++ (site.1.log.mutations.map (·.call) ++ [.flush]) ∧
        ended.2.1.2.inner.contents = store.inner.contents.applyAll
          ((Site.accepted (bound, store) steps).map (·.changeAt tx.writePointer)) ∧
        ∃ descriptor, Descriptor.decode descriptor = .ok tx ∧
          ended.2.2.committed = before.committed ++ [(tx.writePointer, [descriptor])] ∧
          (tx.writePointer ∉ before.committedPointers →
            ended.2.2.changesOf? tx.writePointer = some [descriptor])) ∧
      ∀ error, ended.1 = .error error →
        ((site.1.rollback attempt.2).1 = .ok () ∧
          ended.2.1.2.inner.contents = store.inner.contents) ∨
        ended.2.2.Quarantined tx.writePointer := by
  intro tx site attempt before ended
  obtain ⟨valid, log, under⟩ := Underway.of_run binds store inside
  have ordinary := (Transaction.validate_eq_ok_iff.1 valid).1
  obtain ⟨result, unbound, succeeds, fails⟩ := commit_of_bound under.bound valid before
  have left : ∀ outcome changes,
      (before.finish tx.writePointer outcome changes).inProgress.contains tx.writePointer =
        false := by
    intro outcome changes
    rw [inProgress_finish, bne_self_eq_false, Bool.false_and]
  refine ⟨result, by rw [unbound]; rfl, by rw [unbound]; rfl, ?_, fun done => ?_,
    fun error failed => ?_⟩
  · cases tried : attempt.1 with
    | ok _ =>
      rw [(succeeds tried).2]
      exact left _ _
    | error error =>
      rw [(fails error tried).2]
      exact left _ _
  · have tried : attempt.1 = .ok () := result.symm.trans done
    obtain ⟨there, kept⟩ := succeeds tried
    rw [there, kept]
    exact ⟨Table.calls_commit under.bound tried,
      under.commit_contents unbuffered.empty ordinary tried, _, Descriptor.decode_write valid, rfl,
      fun first => changesOf?_finish first _⟩
  · obtain ⟨there, kept⟩ := fails error (result.symm.trans failed)
    rw [there, kept]
    cases back : (site.1.rollback attempt.2).1 with
    | ok _ =>
      obtain ⟨_, attempted⟩ := under.attempt
      exact .inl ⟨rfl, attempted.rollback_undoes unbuffered.empty ordinary unused within back⟩
    | error failure =>
      have outcome : Outcome.ofRollback (site.1, attempt.2) = .invalid := by
        have same : (Participant.rollback (site.1, attempt.2)).1 = .error failure := back
        simp only [Outcome.ofRollback, same]
      refine .inr (.of_invalid ?_)
      rw [invalid_finish, outcome]
      simp [tx]

/-- The commit stops behind the put and the rollback cannot take it back. -/
theorem commit_quarantined_with_stray_cell :
    let coordinator := startingAt 5
    let bound := (({} : Table).bind coordinator.begin.1).2
    let store : FaultyStore MemoryStore :=
      { inner := Sample.store [{ row := "r", version := 1, value := [1] }] }
    let steps : List Step := [.call (Sample.RowWrite.put "r" "d" [2]).call,
      .call (Sample.RowWrite.deleteRow "r").call, .set (.failWrite 1), .set (.failWrite 3)]
    ((coordinator.begin.2.run [.begin]).commit coordinator.begin.1
        (Site.run (bound, store) steps)).2.2.Quarantined coordinator.begin.1.writePointer ∧
      ((coordinator.begin.2.run [.begin]).commit coordinator.begin.1
        (Site.run (bound, store) steps)).2.1.2.inner.contents
          ⟨Bytes.ofText "r", Sample.columnOf "d", ⟨5⟩⟩ = some [2] := by
  intro coordinator bound store steps
  have binds : ({} : Table).bind coordinator.begin.1 = (.ok (), bound) := by decide
  have unbuffered : store.inner.Unbuffered := ⟨by decide +kernel, by decide +kernel⟩
  have inside : ∀ step ∈ steps, step.isInside := by decide +kernel
  obtain ⟨_, _, _, _, _, fails⟩ := commit_undone_or_quarantined coordinator [.begin] binds
    unbuffered (by decide +kernel) (by decide +kernel) inside
  have failed : ((coordinator.begin.2.run [.begin]).commit coordinator.begin.1
      (Site.run (bound, store) steps)).1 = .error (.store (FaultyStore.injected "write")) := by
    decide +kernel
  have stuck : ((Site.run (bound, store) steps).1.rollback
      ((Site.run (bound, store) steps).1.commit (Site.run (bound, store) steps).2).2).1 ≠
        .ok () := by
    decide +kernel
  exact ⟨(fails _ failed).resolve_left fun undone => stuck undone.1, by decide +kernel⟩

end Coordinator

end SnapshotTable
