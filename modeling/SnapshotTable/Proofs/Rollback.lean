import SnapshotTable.Proofs.Run

/-!
Rollback as the inverse of a transaction. If its undo images had room for every version, a rollback
without failures restores the cells that the store held at bind, whatever was written, removed and
partly committed in between. The buffer has to be empty at bind, which it always is where the store
flushes by itself (`MemoryStore.Unbuffered.foldl_perform`).
-/

namespace SnapshotTable

set_option autoImplicit false

/-- Whatever was done inside a transaction over a store with nothing in its buffer and no cell at
the write pointer, a rollback that reports no failure leaves the cells that stood there at bind. -/
theorem rollback_restores_contents {table bound : Table} {tx : Transaction}
    {store : FaultyStore MemoryStore} {steps : List Step} {rolledBack : Site}
    (binds : table.bind tx = (.ok (), bound)) (settled : store.inner.buffer = [])
    (unused : store.inner.Unused tx.writePointer)
    (within : store.inner.VersionsWithin table.config.preImageMaxVersions)
    (inside : ∀ step ∈ steps, step.isInside)
    (clean : (Site.run (bound, store) steps).1.rollback (Site.run (bound, store) steps).2 =
      (.ok (), rolledBack)) :
    rolledBack.2.inner.contents = store.inner.contents ∧ rolledBack.2.inner.buffer = [] := by
  obtain ⟨valid, log, ended⟩ := Underway.of_run binds store inside
  have ordinary := (Transaction.validate_eq_ok_iff.1 valid).1
  have done := congrArg Prod.fst clean
  obtain ⟨nothing, _⟩ := ended.rollback_contents settled ordinary done
  have restores := ended.rollback_restores settled ordinary done
  rw [clean] at nothing restores
  refine ⟨funext fun place => ?_, nothing⟩
  cases before : store.inner.contents place with
  | some value =>
    have elsewhere : place.version ≠ tx.writePointer := fun here => by
      rw [unused.contents_eq_none here] at before
      cases before
    exact (restores place value).2 before elsewhere (within.fewAbove _ before)
  | none =>
    cases after : rolledBack.2.inner.contents place with
    | none => rfl
    | some value =>
      rw [(restores place value).1 after] at before
      cases before

/-- The delete also removes a cell that its transaction does not see, and the commit stops behind
the put. -/
theorem rollback_restores_hidden_contents :
    let tx := Transaction.new ⟨2⟩ ⟨5⟩ []
    let site := Sample.site tx
      [{ row := "r", version := 1, value := [1] }, { row := "r", version := 4, value := [2] }]
    let ended := site.run [.call (Sample.RowWrite.put "r" "d" [3]).call,
      .call (Sample.RowWrite.deleteRow "r").call, .set (.failWrite 1), .call .commit]
    (ended.1.rollback ended.2).2.2.inner.contents = site.2.inner.contents := by
  intro tx site ended
  have binds : ({} : Table).bind tx = (.ok (), site.1) := by decide
  have clean : ended.1.rollback ended.2 = (.ok (), (ended.1.rollback ended.2).2) :=
    Prod.fst_eq_iff.1 (by decide)
  exact (rollback_restores_contents binds rfl (by decide) (by decide) (by decide) clean).1

end SnapshotTable
