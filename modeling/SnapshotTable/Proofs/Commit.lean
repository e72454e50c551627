import SnapshotTable.Proofs.Run

/-!
Commit as the transaction's writes, made once. Attempts that fail on the way leave part of the log
in the store; the attempt that succeeds covers it, and so does every later one. The buffer has to be
empty at bind, as in `Proofs.Rollback`.
-/

namespace SnapshotTable

set_option autoImplicit false

variable {table bound : Table} {tx : Transaction} {store : FaultyStore MemoryStore}

/-- Wherever a run stands, a commit that succeeds there leaves the writes of the whole run applied
in order, and nothing waiting. -/
theorem contents_of_commit_ok (binds : table.bind tx = (.ok (), bound))
    (settled : store.inner.buffer = []) {steps : List Step}
    (inside : ∀ step ∈ steps, step.isInside) {committed : FaultyStore MemoryStore}
    (succeeded : (Site.run (bound, store) steps).1.commit (Site.run (bound, store) steps).2 =
      (.ok (), committed)) :
    committed.inner.buffer = [] ∧ committed.inner.contents =
      store.inner.contents.applyAll
        ((Site.accepted (bound, store) steps).map (·.changeAt tx.writePointer)) := by
  obtain ⟨valid, log, ended⟩ := Underway.of_run binds store inside
  have ordinary := (Transaction.validate_eq_ok_iff.1 valid).1
  have done := congrArg Prod.fst succeeded
  obtain ⟨_, nothing⟩ := Table.commit_ok ended.bound done
  have same := ended.commit_contents settled ordinary done
  rw [succeeded] at nothing same
  exact ⟨nothing, same⟩

/-- However many attempts to commit fail, each leaves the transaction and its log as they were, and
the one that succeeds leaves every write of the caller applied once, in order and at the write
pointer. More attempts that succeed change no cell. -/
theorem commit_applies_writes_once (binds : table.bind tx = (.ok (), bound))
    (settled : store.inner.buffer = []) {steps : List Step}
    (inside : ∀ step ∈ steps, step.isInside) :
    (∀ before after, steps = before ++ .call .commit :: after →
      (Site.run (bound, store) (before ++ [.call .commit])).1 =
        (Site.run (bound, store) before).1) ∧
    ∀ committed,
      (Site.run (bound, store) steps).1.commit (Site.run (bound, store) steps).2 =
        (.ok (), committed) →
      committed.inner.contents =
        store.inner.contents.applyAll
          ((Site.accepted (bound, store) steps).map (·.changeAt tx.writePointer)) ∧
      ∀ again : List Step, (∀ step ∈ again, step.isRetry) → ∀ last,
        let retried := Site.run ((Site.run (bound, store) steps).1, committed) again
        retried.1.commit retried.2 = (.ok (), last) →
          last.inner.contents = committed.inner.contents := by
  refine ⟨fun before after _ => ?_, fun committed succeeded => ?_⟩
  · rw [Site.run_append]
    rfl
  have first := (contents_of_commit_ok binds settled inside succeeded).2
  refine ⟨first, ?_⟩
  intro again retries last retried repeated
  -- The first commit and the attempts after it belong to one longer run, which accepts no more.
  have further : ∀ step ∈ Step.call .commit :: again, step.isRetry := by
    intro step mem
    rcases List.mem_cons.1 mem with rfl | mem
    · rfl
    · exact retries step mem
  have longer : Site.run (bound, store) (steps ++ .call .commit :: again) = retried := by
    have next : Step.run (Site.run (bound, store) steps) (.call .commit) =
        ((Site.run (bound, store) steps).1, committed) := by
      simp only [Step.run, Table.perform, succeeded]
    rw [Site.run_append]
    change Site.run (Step.run _ _) again = retried
    rw [next]
  have stillInside : ∀ step ∈ steps ++ .call .commit :: again, step.isInside := by
    intro step mem
    rcases List.mem_append.1 mem with mem | mem
    · exact inside step mem
    · exact Step.isInside_of_isRetry (further step mem)
  have second := (contents_of_commit_ok binds settled stillInside
    (by rw [longer]; exact repeated)).2
  rw [second, first, Site.accepted_append, Site.accepted_of_isRetry _ further, List.append_nil]

/-- The first attempt stops behind the put and the second one at the flush. -/
theorem commit_applies_writes_third_time :
    let tx := Transaction.new ⟨2⟩ ⟨5⟩ []
    let site := Sample.site tx [{ row := "r", version := 1, value := [1] }]
    let writes : List Sample.RowWrite := [.put "r" "d" [2], .deleteRow "r", .put "r" "c" [3]]
    let steps := writes.map (.call ·.call) ++ [.set (.failWrite 1), .call .commit,
      .set (.failFlush true), .call .commit, .set (.failFlush false)]
    ((site.run steps).1.commit (site.run steps).2).2.inner.contents =
      site.2.inner.contents.applyAll
        ((writes.flatMap (·.call.mutations)).map (·.changeAt tx.writePointer)) := by
  intro tx site writes steps
  have binds : ({} : Table).bind tx = (.ok (), site.1) := by decide
  have succeeded : (site.run steps).1.commit (site.run steps).2 =
      (.ok (), ((site.run steps).1.commit (site.run steps).2).2) :=
    Prod.fst_eq_iff.1 (by decide +kernel)
  have accepted : site.accepted steps = writes.flatMap (·.call.mutations) := by decide +kernel
  rw [← accepted]
  exact ((commit_applies_writes_once binds rfl (by decide)).2 _ succeeded).1

end SnapshotTable
