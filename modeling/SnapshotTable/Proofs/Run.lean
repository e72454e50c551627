import Mathlib.Data.Prod.Basic
import SnapshotTable.Proofs.Session
import SnapshotTable.Proofs.Snapshot

/-!
Runs of one table over a memory store behind a fault layer. Between the calls the layer may be set
to let any of the next calls fail, so an attempt to commit ends at any write, at the flush, or well.
-/

namespace SnapshotTable

set_option autoImplicit false

theorem Table.get_ok {table : Table} {tx : Transaction} {log : PendingLog}
    (bound : table.binding = some ⟨tx, log⟩) (valid : tx.validate = .ok ())
    {store : FaultyStore MemoryStore} (opened : store.inner.closed = false)
    (readable : store.failReads = false) (request : Get) : ∃ stamped : Get,
      stamped.row = request.row ∧ stamped.filter = tx.restrict request.filter ∧
        (table.get request store).1 = .ok (store.inner.get stamped) := by
  obtain ⟨stamped, row, filter, reply⟩ := Table.get_reply bound valid request store
  have answered : (CellStore.get stamped store).1 = .ok (store.inner.get stamped) := by
    change (FaultyStore.perform (.get stamped) store).1 = _
    simp only [FaultyStore.perform, FaultyStore.fault?, readable]
    change (store.inner.perform (.get stamped)).1 = _
    simp only [MemoryStore.perform, opened]
    rfl
  refine ⟨stamped, row, filter, ?_⟩
  rw [reply, answered]
  rfl

abbrev Site := Table × FaultyStore MemoryStore

inductive FaultSetting where
  | failWrite (number : Nat)
  | failAllWrites (fail : Bool)
  | failReads (fail : Bool)
  | failFlush (fail : Bool)
  | clearCalls
deriving DecidableEq

def FaultSetting.apply {σ : Type} (store : FaultyStore σ) : FaultSetting → FaultyStore σ
  | failWrite number => store.failWrite number
  | failAllWrites fail => { store with failAllWrites := fail }
  | failReads fail => { store with failReads := fail }
  | failFlush fail => { store with failFlush := fail }
  | clearCalls => store.clearCalls

theorem FaultSetting.inner_apply {σ : Type} (store : FaultyStore σ) (setting : FaultSetting) :
    (setting.apply store).inner = store.inner := by
  cases setting <;> rfl

inductive Step where
  | call (call : TableCall)
  | set (setting : FaultSetting)
deriving DecidableEq

namespace Step

def run (site : Site) : Step → Site
  | call made => (site.1.perform site.2 made).2
  | set setting => (site.1, setting.apply site.2)

def accepted (site : Site) : Step → List Mutation
  | call made => made.accepted site.1 site.2
  | set _ => []

def isInside : Step → Bool
  | call made => made.isInside
  | set _ => true

def isRetry : Step → Bool
  | call made => decide (made = .commit)
  | set _ => true

theorem isInside_of_isRetry {step : Step} (retry : step.isRetry) : step.isInside := by
  cases step with
  | set => rfl
  | call made =>
    obtain rfl : made = .commit := by simpa [isRetry] using retry
    rfl

theorem accepted_of_isRetry {step : Step} (retry : step.isRetry) (site : Site) :
    step.accepted site = [] := by
  cases step with
  | set => rfl
  | call made =>
    obtain rfl : made = .commit := by simpa [isRetry] using retry
    exact ite_self _

end Step

namespace Site

def run (site : Site) (steps : List Step) : Site := steps.foldl Step.run site

def accepted (site : Site) : List Step → List Mutation
  | [] => []
  | step :: rest => step.accepted site ++ accepted (step.run site) rest

theorem run_append (site : Site) (first second : List Step) :
    site.run (first ++ second) = (site.run first).run second :=
  List.foldl_append ..

theorem accepted_append (site : Site) (first second : List Step) :
    site.accepted (first ++ second) = site.accepted first ++ (site.run first).accepted second := by
  induction first generalizing site with
  | nil => rfl
  | cons step rest ih =>
    rw [List.cons_append, accepted, ih, ← List.append_assoc]
    rfl

theorem accepted_of_isRetry (site : Site) {steps : List Step}
    (retries : ∀ step ∈ steps, step.isRetry) : site.accepted steps = [] := by
  induction steps generalizing site with
  | nil => rfl
  | cons step rest ih =>
    rw [accepted, Step.accepted_of_isRetry (retries step (List.mem_cons_self ..)),
      ih _ fun other mem => retries other (List.mem_cons_of_mem _ mem)]
    rfl

end Site

namespace Underway

variable {start : MemoryStore} {tx : Transaction} {maxVersions : Nat} {log : PendingLog}
  {writes : List Mutation}

theorem step (site : Site)
    (under : Underway start tx maxVersions log writes site.1 (memory site.2))
    {step : Step} (inside : step.isInside) : ∃ log,
      Underway start tx maxVersions log (writes ++ step.accepted site) (step.run site).1
        (memory (step.run site).2) := by
  cases step with
  | call made => exact under.perform inside
  | set setting =>
    refine ⟨log, ?_⟩
    have kept : memory (setting.apply site.2) = memory site.2 := by
      change memory (setting.apply site.2).inner = memory site.2.inner
      rw [setting.inner_apply]
    rw [Step.accepted, List.append_nil]
    simpa only [Step.run, kept] using under

/-- Whatever is done inside a transaction, in any order, it stays underway. -/
theorem run (site : Site)
    (under : Underway start tx maxVersions log writes site.1 (memory site.2)) {steps : List Step}
    (inside : ∀ step ∈ steps, step.isInside) : ∃ log,
      Underway start tx maxVersions log (writes ++ site.accepted steps) (site.run steps).1
        (memory (site.run steps).2) := by
  induction steps generalizing site log writes with
  | nil => exact ⟨log, by simpa [Site.accepted, Site.run] using under⟩
  | cons first rest ih =>
    obtain ⟨_, next⟩ := under.step site (inside first (List.mem_cons_self ..))
    have later := ih _ next fun other mem => inside other (List.mem_cons_of_mem _ mem)
    rwa [List.append_assoc] at later

theorem of_run {table bound : Table} (binds : table.bind tx = (.ok (), bound))
    (store : FaultyStore MemoryStore) {steps : List Step}
    (inside : ∀ step ∈ steps, step.isInside) : tx.validate = .ok () ∧ ∃ log,
      Underway store.inner tx table.config.preImageMaxVersions log
        (Site.accepted (bound, store) steps) (Site.run (bound, store) steps).1
        (memory (Site.run (bound, store) steps).2) := by
  obtain ⟨valid, started⟩ := of_bind binds store.inner
  obtain ⟨log, ended⟩ := started.run (bound, store) inside
  exact ⟨valid, log, ended⟩

end Underway

/-- A table bound to a transaction, over some cells. -/
def Sample.site (tx : Transaction) (seeds : List SeedCell) : Site :=
  ((({} : Table).bind tx).2, { inner := store seeds })

end SnapshotTable
