import SnapshotTable.Proofs.Buffer
import SnapshotTable.Proofs.Clock

/-!
Mutations that a memory store makes on a condition. The condition is checked by a look-up of its
own, which finds what a read without a filter shows. If it holds, the mutation is made at once, past
the buffer and whatever waits there; if not, nothing is done at all.
-/

namespace SnapshotTable

set_option autoImplicit false

def FlatStore.apply (store : FlatStore) : Mutation → FlatStore
  | .put request => store.put request
  | .delete request => store.delete request

namespace MemoryStore

theorem apply_flat (store : MemoryStore) (mutation : Mutation) :
    (store.apply mutation).flat = store.flat.apply mutation := by
  cases mutation with
  | put request => exact store.applyPut_flat request
  | delete request => exact store.applyDelete_flat request

def checkAnd (store : MemoryStore) (condition : Condition) :
    Mutation → Except StoreError Bool × MemoryStore
  | .put request => store.perform (.checkAndPut condition request)
  | .delete request => store.perform (.checkAndDelete condition request)

variable {store : MemoryStore} {condition : Condition} {mutation : Mutation}

theorem checkAnd_of_open (opened : store.closed = false) (here : mutation.row = condition.row)
    (full : mutation.HasCells) : store.checkAnd condition mutation =
      (.ok (store.applyIf condition mutation).1, (store.applyIf condition mutation).2) := by
  cases mutation with
  | put request =>
    have same : ¬condition.row ≠ request.row := fun other => other here.symm
    have nonempty : ¬request.isEmpty := by simpa [Put.isEmpty, Mutation.HasCells] using full
    simp only [checkAnd, perform, opened, performOpen, same, nonempty, if_false,
      Bool.false_eq_true]
  | delete request =>
    have same : ¬condition.row ≠ request.row := fun other => other here.symm
    simp only [checkAnd, perform, opened, performOpen, same, if_false, Bool.false_eq_true]

theorem perform_call_unbuffered (opened : store.closed = false) (full : mutation.HasCells)
    (unused : Nat) : ((store.withConfig ⟨true, unused⟩).perform mutation.call).2 =
      (store.apply mutation).withConfig ⟨true, unused⟩ := by
  have direct : (store.withConfig ⟨true, unused⟩).closed = false := opened
  obtain ⟨reply, made⟩ := perform_mutation_of_open direct full
  rw [made]
  exact apply_withConfig store ⟨true, unused⟩ mutation

/-- A checked mutation of an open store succeeds exactly if a read without a filter shows the expected
value. Then it changes the cells and the clock as the mutation changes the flat map that they
represent, which is what the plain mutation does where nothing is buffered, and leaves the buffer
alone. Otherwise it leaves the whole store as it is. -/
theorem checked_mutation_is_exact (opened : store.closed = false)
    (here : mutation.row = condition.row) (full : mutation.HasCells) :
    let checked := store.checkAnd condition mutation
    ∃ result : RowResult, (store.perform (.get { row := condition.row })).1 = .ok result ∧
      (checked.1 = .ok true ↔ result.value? condition.column = condition.expected) ∧
      (result.value? condition.column = condition.expected →
        checked.2.flat = store.flat.apply mutation ∧ checked.2.buffer = store.buffer ∧
          ∀ unused, checked.2.withConfig ⟨true, unused⟩ =
            ((store.withConfig ⟨true, unused⟩).perform mutation.call).2) ∧
      (result.value? condition.column ≠ condition.expected → checked = (.ok false, store)) := by
  intro checked
  have decided : checked = (.ok (store.applyIf condition mutation).1,
      (store.applyIf condition mutation).2) := checkAnd_of_open opened here full
  have shown : (store.get { row := condition.row }).value? condition.column =
      store.newest? condition.row condition.column := store.shown_eq_newest? ..
  refine ⟨_, by rw [perform_get_of_open opened], ?_⟩
  rw [shown, decided, applyIf]
  by_cases held : store.newest? condition.row condition.column = condition.expected
  · rw [if_pos held]
    refine ⟨iff_of_true rfl held, fun _ => ⟨store.apply_flat mutation, store.buffer_apply mutation,
      fun unused => (perform_call_unbuffered opened full unused).symm⟩, fun other => ?_⟩
    exact absurd held other
  · rw [if_neg held]
    have refused : (Except.ok false : Except StoreError Bool) ≠ .ok true := by simp
    exact ⟨iff_of_false refused held, fun same => absurd same held, fun _ => rfl⟩

/-- A put and a delete wait in the buffer, and the newest version of the column was not written
last. The check passes on what is stored, and both go on waiting. -/
theorem checked_mutation_is_exact_beside_buffer :
    let row := Bytes.ofText "r"
    let put (version : Version) (value : Bytes) : Put :=
      { row := row, cells := [⟨Sample.column, version, value⟩] }
    let store := ({ config := ⟨false, 3⟩ } : MemoryStore).performAll
      [.put (put ⟨9⟩ [9]), .put (put ⟨5⟩ [5]), .flush, .put (put .latest [7]),
        .delete { row := row }]
    let condition : Condition := ⟨row, Sample.column, some [9]⟩
    ∃ next, store.checkAnd condition (.put (put .latest [1])) = (.ok true, next) ∧
      next.buffer = store.buffer ∧ store.buffer.length = 2 ∧
        next.flat.cells.find? ⟨row, Sample.column, ⟨10⟩⟩ = some [1] := by
  intro row put store condition
  have opened : store.closed = false := by decide +kernel
  have here : (Mutation.put (put .latest [1])).row = condition.row := rfl
  have full : (Mutation.put (put .latest [1])).HasCells := by simp [Mutation.HasCells, put]
  obtain ⟨result, read, decided, made, _⟩ := checked_mutation_is_exact opened here full
  have value : result.value? condition.column = condition.expected := by
    rw [perform_get_of_open opened] at read
    rw [← Except.ok.inj read]
    decide +kernel
  obtain ⟨cells, buffer, _⟩ := made value
  have found : (store.flat.apply (.put (put .latest [1]))).cells.find?
      ⟨row, Sample.column, ⟨10⟩⟩ = some [1] := by decide +kernel
  have waiting : store.buffer.length = 2 := by decide +kernel
  -- From here on the store is any one of which these facts hold.
  clear_value store
  rw [← cells] at found
  exact ⟨_, Prod.ext (decided.2 value) rfl, buffer, waiting, found⟩

end MemoryStore

end SnapshotTable
