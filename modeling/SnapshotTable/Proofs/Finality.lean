import SnapshotTable.Proofs.History
import SnapshotTable.Proofs.Run

/-!
What stays of a commit. A coordinator records a commit for good, but it does not consult the record
when it is asked to end the transaction once more: a rollback that fails then makes the transaction
invalid. Nothing else does, and nothing else hides it from the snapshots to come but its pointer
being handed out a second time.
-/

namespace SnapshotTable

set_option autoImplicit false

namespace Coordinator

/-- A pointer is handed out after a call has ended a transaction that has it. -/
def Reissued (coordinator : Coordinator) (calls : List CoordinatorCall) (pointer : Version) : Prop :=
  ∃ earlier later, calls = earlier ++ .begin :: later ∧
    (coordinator.run earlier).begin.1.writePointer = pointer ∧
      ∃ call ∈ earlier, ∃ outcome, call.ending? = some (pointer, outcome)

theorem reissued_of_inProgress {coordinator : Coordinator} {calls : List CoordinatorCall}
    {pointer : Version} (running : (coordinator.run calls).inProgress.contains pointer)
    (ended : ∃ call ∈ calls, ∃ outcome, call.ending? = some (pointer, outcome)) :
    coordinator.Reissued calls pointer := by
  obtain ⟨call, mem, outcome, ended⟩ := ended
  obtain ⟨earlier, later, split, before, same⟩ := issued_again_of_inProgress running mem ended
  exact ⟨earlier, later, split, same, call, before, outcome, ended⟩

/-- In a run of any calls, a transaction whose commit has succeeded stays recorded. It is invalid
only if some other call of the run for its pointer had its rollback fail, and a transaction that
begins afterwards excludes it only then, or if its pointer was handed out after a call had ended it.
The committed, the running and the invalid transactions overlap in no other pointers than these. -/
theorem commit_is_final (first : UInt64) (before after : List CoordinatorCall) {σ : Type}
    [CellStore σ] (tx : Transaction) (site : Table × σ)
    (succeeded : (((startingAt first).run before).commit tx site).1 = .ok ()) :
    let calls := before ++ .commit tx site :: after
    let ended := (startingAt first).run calls
    tx.writePointer ∈ ended.committedPointers ∧
      (ended.invalid.contains tx.writePointer →
        ∃ call ∈ before ++ after, call.ending? = some (tx.writePointer, .invalid)) ∧
      (ended.begin.1.excludes tx.writePointer →
        (∃ call ∈ before ++ after, call.ending? = some (tx.writePointer, .invalid)) ∨
          (startingAt first).Reissued calls tx.writePointer) ∧
      (∀ pointer ∈ ended.committedPointers, ended.invalid.contains pointer →
        (∃ call ∈ calls, call.ending? = some (pointer, .committed)) ∧
          ∃ call ∈ calls, call.ending? = some (pointer, .invalid)) ∧
      ∀ pointer, ended.inProgress.contains pointer →
        pointer ∈ ended.committedPointers ∨ ended.invalid.contains pointer →
          (startingAt first).Reissued calls pointer := by
  intro calls ended
  have commits : (CoordinatorCall.commit tx site).ending? = some (tx.writePointer, .committed) := by
    rw [CoordinatorCall.ending?, commit_ok_iff.1 succeeded]
    rfl
  have listed : CoordinatorCall.commit tx site ∈ calls :=
    List.mem_append_right _ (List.mem_cons_self ..)
  have others : ended.invalid.contains tx.writePointer →
      ∃ call ∈ before ++ after, call.ending? = some (tx.writePointer, .invalid) := by
    intro invalid
    obtain ⟨call, mem, failed⟩ := invalid_run_startingAt.1 invalid
    refine ⟨call, ?_, failed⟩
    rw [List.mem_append]
    rcases List.mem_append.1 mem with mem | mem
    · exact .inl mem
    · rcases List.mem_cons.1 mem with rfl | mem
      · rw [commits] at failed
        cases failed
      · exact .inr mem
  have both : ∀ pointer ∈ ended.committedPointers, ended.invalid.contains pointer →
      (∃ call ∈ calls, call.ending? = some (pointer, .committed)) ∧
        ∃ call ∈ calls, call.ending? = some (pointer, .invalid) := fun pointer recorded failed =>
    ⟨mem_committedPointers_run_startingAt.1 recorded, invalid_run_startingAt.1 failed⟩
  refine ⟨mem_committedPointers_run_startingAt.2 ⟨_, listed, commits⟩, others,
    fun excluded => ?_, both, fun pointer running settled => reissued_of_inProgress running ?_⟩
  · rw [excludes_begin, Bool.or_eq_true] at excluded
    rcases excluded with running | failed
    · exact .inr (reissued_of_inProgress running ⟨_, listed, _, commits⟩)
    · exact .inl (others failed)
  · rcases settled with recorded | failed
    · obtain ⟨call, mem, ends⟩ := mem_committedPointers_run_startingAt.1 recorded
      exact ⟨call, mem, _, ends⟩
    · obtain ⟨call, mem, ends⟩ := invalid_run_startingAt.1 failed
      exact ⟨call, mem, _, ends⟩

/-- A transaction commits; another one begins, and its rollback fails. -/
theorem commit_is_final_beside_invalid :
    let tx := (startingAt 1).begin.1
    let site := Sample.site tx []
    let other := (startingAt 2).begin.1
    let failing : Site := ((Sample.site other []).1, { inner := {}, failFlush := true })
    let ended := (startingAt 1).run [.begin, .commit tx site, .begin, .abort other failing]
    ended.committedPointers = [tx.writePointer] ∧ ended.invalid.contains other.writePointer ∧
      (ended.invalid.contains tx.writePointer →
        ∃ call ∈ [CoordinatorCall.begin, .begin, .abort other failing],
          call.ending? = some (tx.writePointer, .invalid)) := by
  intro tx site other failing ended
  have final := commit_is_final 1 [.begin] [.begin, .abort other failing] tx site (by decide +kernel)
  exact ⟨by decide +kernel, by decide +kernel, final.2.1⟩

/-- A transaction commits and is then to be aborted: on the table that the commit has unbound, or
bound once more to a table over a store that cannot be flushed. Either way the rollback fails, and
the committed transaction is invalid and excluded from the next snapshot. If it commits before its
pointer is handed out, it is in progress afterwards. -/
theorem committed_becomes_invalid :
    let tx := (startingAt 1).begin.1
    let site := Sample.site tx []
    let committed := (startingAt 1).begin.2.commit tx site
    let again : Site := (site.1, { inner := {}, failFlush := true })
    let stray := (startingAt 1).run [.begin, .commit tx site, .abort tx committed.2.1]
    let repeated := (startingAt 1).run [.begin, .commit tx site, .abort tx again]
    let early := (startingAt 1).run [.commit tx site, .begin]
    committed.1 = .ok () ∧ (committed.2.2.abort tx committed.2.1).1 = .error .notBound ∧
      (∀ ended ∈ [stray, repeated],
        tx.writePointer ∈ ended.committedPointers ∧ ended.invalid.contains tx.writePointer) ∧
      tx.writePointer ∈ early.committedPointers ∧ early.inProgress.contains tx.writePointer ∧
      (∀ ended ∈ [stray, repeated, early], ended.begin.1.excludes tx.writePointer) := by
  decide +kernel

end Coordinator

end SnapshotTable
