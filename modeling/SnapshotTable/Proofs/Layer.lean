import SnapshotTable.Proofs.Intake
import SnapshotTable.Store.Faulty

/-!
Stores that are a memory store, or a layer around one that may make calls fail. Whatever the layer
does, a call either fails and leaves the memory store alone, or is the memory store's own call.
-/

namespace SnapshotTable

set_option autoImplicit false

/-- A memory store, behind layers that let a call through or make it fail. -/
class MemoryLayer (σ : Type) [CellStore σ] where
  memory : σ → MemoryStore
  perform_cases (call : StoreCall) (store : σ) :
    ((∃ error, (CellStore.perform call store).1 = .error error) ∧
        memory (CellStore.perform call store).2 = memory store) ∨
      ((CellStore.perform call store).1 = ((memory store).perform call).1 ∧
        memory (CellStore.perform call store).2 = ((memory store).perform call).2)

export MemoryLayer (memory)

instance : MemoryLayer MemoryStore where
  memory := id
  perform_cases _ _ := .inr ⟨rfl, rfl⟩

instance {σ : Type} [CellStore σ] [MemoryLayer σ] : MemoryLayer (FaultyStore σ) where
  memory store := memory store.inner
  perform_cases call store := by
    change ((∃ error, (FaultyStore.perform call store).1 = .error error) ∧
        memory (FaultyStore.perform call store).2.inner = memory store.inner) ∨
      ((FaultyStore.perform call store).1 = ((memory store.inner).perform call).1 ∧
        memory (FaultyStore.perform call store).2.inner = ((memory store.inner).perform call).2)
    cases fault : store.fault? call with
    | some error => exact .inl (by simp [FaultyStore.perform, fault, FaultyStore.record])
    | none =>
      simp only [FaultyStore.perform, fault]
      exact MemoryLayer.perform_cases call store.inner

def Mutation.call : Mutation → StoreCall
  | .put write => .put write
  | .delete removal => .delete removal

theorem Mutation.call_injective : Function.Injective Mutation.call := by
  intro first second same
  cases first <;> cases second <;> cases same <;> rfl

/-- A put without cells is refused by every store. -/
def Mutation.HasCells : Mutation → Prop
  | .put write => write.cells ≠ []
  | .delete _ => True

theorem MemoryStore.perform_mutation_of_closed {store : MemoryStore} (closed : store.closed)
    (mutation : Mutation) : store.perform mutation.call = (.error .closed, store) := by
  cases mutation <;> simp [perform, Mutation.call, closed]

theorem MemoryStore.perform_mutation_of_open {store : MemoryStore} (opened : store.closed = false)
    {mutation : Mutation} (nonempty : mutation.HasCells) :
    ∃ reply, store.perform mutation.call = (.ok reply, store.accept mutation) := by
  cases mutation with
  | put write => exact ⟨(), perform_put_of_open opened nonempty⟩
  | delete removal => exact ⟨(), perform_delete_of_open opened removal⟩

namespace MemoryLayer

variable {σ : Type} [CellStore σ] [MemoryLayer σ]

theorem memory_get (request : Get) (store : σ) :
    memory (CellStore.get request store).2 = memory store := by
  rcases perform_cases (.get request) store with ⟨_, same⟩ | ⟨_, same⟩
  · exact same
  · apply same.trans
    by_cases closed : (memory store).closed <;>
      simp [MemoryStore.perform, MemoryStore.performOpen, closed]

theorem get_ok {request : Get} {store : σ} {result : RowResult}
    (read : (CellStore.get request store).1 = .ok result) :
    result = (memory store).get request := by
  rcases perform_cases (.get request) store with ⟨⟨error, failed⟩, _⟩ | ⟨same, _⟩
  · have clash : (Except.error error : Except StoreError RowResult) = .ok result :=
      failed.symm.trans read
    cases clash
  · have here : ((memory store).perform (.get request)).1 = .ok result := same.symm.trans read
    by_cases closed : (memory store).closed
    · simp [MemoryStore.perform, closed] at here
    · simp only [MemoryStore.perform, closed] at here
      exact (Except.ok.inj here).symm

theorem memory_scan (request : Scan) (store : σ) :
    memory (CellStore.scan request store).2 = memory store := by
  rcases perform_cases (.scan request) store with ⟨_, same⟩ | ⟨_, same⟩
  · exact same
  · apply same.trans
    by_cases closed : (memory store).closed <;>
      simp [MemoryStore.perform, MemoryStore.performOpen, closed]

theorem memory_holds (request : Get) (store : σ) :
    memory (CellStore.holds request store).2 = memory store := by
  have read := memory_get request store
  rw [CellStore.holds]
  split <;> (rename_i eq; rwa [eq] at read)

theorem memory_getMany (requests : List Get) (store : σ) :
    memory (CellStore.getMany requests store).2 = memory store := by
  induction requests generalizing store with
  | nil => rfl
  | cons request rest ih =>
    have read := memory_get request store
    rw [CellStore.getMany]
    split
    · rename_i eq
      rwa [eq] at read
    · rename_i next eq
      have later := ih next
      rw [eq] at read
      split <;> (rename_i eq'; rw [eq'] at later; exact later.trans read)

theorem perform_mutation (mutation : Mutation) (store : σ) :
    (∃ error next, CellStore.perform mutation.call store = (.error error, next) ∧
        memory next = memory store) ∨
      ∃ reply next, CellStore.perform mutation.call store = (.ok reply, next) ∧
        memory next = (memory store).accept mutation := by
  have done : ((∃ error, (CellStore.perform mutation.call store).1 = .error error) ∧
        memory (CellStore.perform mutation.call store).2 = memory store) ∨
      ((∃ reply, (CellStore.perform mutation.call store).1 = .ok reply) ∧
        memory (CellStore.perform mutation.call store).2 = (memory store).accept mutation) := by
    rcases perform_cases mutation.call store with failed | ⟨result, same⟩
    · exact .inl failed
    rw [result, same]
    by_cases closed : (memory store).closed
    · cases mutation <;> exact .inl (by simp [MemoryStore.perform, closed, Mutation.call])
    cases mutation with
    | put write =>
      by_cases empty : write.isEmpty
      · exact .inl (by
          simp [MemoryStore.perform, MemoryStore.performOpen, closed, Mutation.call, empty])
      · exact .inr (by
          simp [MemoryStore.perform, MemoryStore.performOpen, closed, Mutation.call, empty])
    | delete removal =>
      exact .inr (by simp [MemoryStore.perform, MemoryStore.performOpen, closed, Mutation.call])
  rcases done with ⟨⟨error, failed⟩, same⟩ | ⟨⟨reply, succeeded⟩, same⟩
  · exact .inl ⟨error, _, Prod.ext failed rfl, same⟩
  · exact .inr ⟨reply, _, Prod.ext succeeded rfl, same⟩

theorem perform_flush (store : σ) :
    (∃ error next, CellStore.perform .flush store = (.error error, next) ∧
        memory next = memory store) ∨
      ∃ next, CellStore.perform .flush store = (.ok (), next) ∧
        memory next = (memory store).flushBuffer := by
  rcases perform_cases .flush store with ⟨⟨error, failed⟩, same⟩ | ⟨result, same⟩
  · exact .inl ⟨error, _, Prod.ext failed rfl, same⟩
  by_cases closed : (memory store).closed
  · refine .inl ⟨.closed, _, Prod.ext (result.trans ?_) rfl, same.trans ?_⟩ <;>
      simp [MemoryStore.perform, closed]
  · refine .inr ⟨_, Prod.ext (result.trans ?_) rfl, same.trans ?_⟩ <;>
      simp [MemoryStore.perform, MemoryStore.performOpen, closed]

end MemoryLayer

end SnapshotTable
