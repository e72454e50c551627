import SnapshotTable.Proofs.Contents

/-!
What a store takes in. Between two states of a store lies a list of mutations, taken in one by one,
with flushes wherever they happen. The contents show a first part of the list, the buffer holds the
rest, and a flush shows all of it.
-/

namespace SnapshotTable

set_option autoImplicit false

namespace MemoryStore

theorem flushBuffer_frame (store : MemoryStore) : ∃ rows clock,
    store.flushBuffer = { store with rows := rows, clock := clock, buffer := [] } :=
  foldl_apply_frame { store with buffer := [] } store.buffer

@[simp] theorem buffer_flushBuffer (store : MemoryStore) : store.flushBuffer.buffer = [] := by
  obtain ⟨rows, clock, same⟩ := store.flushBuffer_frame
  rw [same]

@[simp] theorem config_flushBuffer (store : MemoryStore) :
    store.flushBuffer.config = store.config := by
  obtain ⟨rows, clock, same⟩ := store.flushBuffer_frame
  rw [same]

@[simp] theorem closed_flushBuffer (store : MemoryStore) :
    store.flushBuffer.closed = store.closed := by
  obtain ⟨rows, clock, same⟩ := store.flushBuffer_frame
  rw [same]

theorem contents_flushBuffer (store : MemoryStore)
    (explicit : ∀ mutation ∈ store.buffer, mutation.Explicit) :
    store.flushBuffer.contents = store.contents.applyAll (store.buffer.map (·.change)) :=
  contents_foldl_apply { store with buffer := [] } explicit

/-- A mutation is applied, or joins the buffer, and then everything in the buffer may be applied. -/
theorem accept_cases (store : MemoryStore) (mutation : Mutation) :
    (store.config.autoFlush ∧ store.accept mutation = store.apply mutation) ∨
      (¬store.config.autoFlush ∧
        (store.accept mutation = { store with buffer := store.buffer ++ [mutation] } ∨
          store.accept mutation =
            { store with buffer := store.buffer ++ [mutation] }.flushBuffer)) := by
  by_cases auto : store.config.autoFlush
  · exact .inl ⟨auto, by simp [accept, auto]⟩
  · refine .inr ⟨auto, ?_⟩
    by_cases full : store.config.writeBufferSize ≤ (store.buffer ++ [mutation]).length
    · exact .inr (by simp only [accept, auto, if_pos full]; rfl)
    · exact .inl (by simp only [accept, auto, if_neg full]; rfl)

@[simp] theorem config_accept (store : MemoryStore) (mutation : Mutation) :
    (store.accept mutation).config = store.config := by
  rcases store.accept_cases mutation with ⟨_, same⟩ | ⟨_, same | same⟩ <;> simp [same]

@[simp] theorem closed_accept (store : MemoryStore) (mutation : Mutation) :
    (store.accept mutation).closed = store.closed := by
  rcases store.accept_cases mutation with ⟨_, same⟩ | ⟨_, same | same⟩ <;> simp [same]

theorem perform_of_closed {store : MemoryStore} (closed : store.closed) (call : StoreCall) :
    (store.perform call).2 = store := by
  cases call <;> simp [perform, closed]

theorem perform_put_of_open {store : MemoryStore} (opened : store.closed = false) {write : Put}
    (nonempty : write.cells ≠ []) :
    store.perform (.put write) = (.ok (), store.accept (.put write)) := by
  simp [perform, performOpen, opened, Put.isEmpty, nonempty]

theorem perform_delete_of_open {store : MemoryStore} (opened : store.closed = false)
    (removal : Delete) :
    store.perform (.delete removal) = (.ok (), store.accept (.delete removal)) := by
  simp [perform, performOpen, opened]

theorem perform_flush_of_open {store : MemoryStore} (opened : store.closed = false) :
    store.perform .flush = (.ok (), store.flushBuffer) := by
  simp [perform, performOpen, opened]

/-- The store flushes by itself, so nothing waits. -/
structure Unbuffered (store : MemoryStore) : Prop where
  auto : store.config.autoFlush
  empty : store.buffer = []

namespace Unbuffered

variable {store : MemoryStore}

theorem apply (unbuffered : store.Unbuffered) (mutation : Mutation) :
    (store.apply mutation).Unbuffered :=
  ⟨by simpa using unbuffered.auto, by simpa using unbuffered.empty⟩

theorem accept (unbuffered : store.Unbuffered) (mutation : Mutation) :
    (store.accept mutation).Unbuffered := by
  rcases store.accept_cases mutation with ⟨_, same⟩ | ⟨manual, _⟩
  · rw [same]
    exact unbuffered.apply mutation
  · exact absurd unbuffered.auto manual

theorem flushBuffer (unbuffered : store.Unbuffered) : store.flushBuffer.Unbuffered :=
  ⟨by simpa using unbuffered.auto, buffer_flushBuffer store⟩

theorem applyIf (unbuffered : store.Unbuffered) (condition : Condition) (mutation : Mutation) :
    (store.applyIf condition mutation).2.Unbuffered := by
  rw [MemoryStore.applyIf]
  split
  · exact unbuffered.apply mutation
  · exact unbuffered

theorem updateColumns {α : Type} (unbuffered : store.Unbuffered) (row : Bytes)
    (columns : List (Column × α)) (derive : Option Bytes → α → Except StoreError Bytes) :
    (store.updateColumns row columns derive).2.Unbuffered := by
  have ticked : store.tick.2.Unbuffered := ⟨unbuffered.auto, unbuffered.empty⟩
  rw [MemoryStore.updateColumns]
  dsimp only
  split
  · exact ticked
  · exact ticked.apply (.put _)

theorem perform (unbuffered : store.Unbuffered) (call : StoreCall) :
    (store.perform call).2.Unbuffered := by
  by_cases closed : store.closed
  · cases call <;> simpa [MemoryStore.perform, closed] using unbuffered
  · simp only [MemoryStore.perform, closed, Bool.false_eq_true, if_false]
    cases call with
    | get request => exact unbuffered
    | scan request => exact unbuffered
    | put request =>
      simp only [performOpen]
      split
      · exact unbuffered
      · exact unbuffered.accept _
    | delete request => exact unbuffered.accept _
    | checkAndPut condition request =>
      simp only [performOpen]
      split
      · exact unbuffered
      · split
        · exact unbuffered
        · exact unbuffered.applyIf condition _
    | checkAndDelete condition request =>
      simp only [performOpen]
      split
      · exact unbuffered
      · exact unbuffered.applyIf condition _
    | append request => exact unbuffered.updateColumns ..
    | increment request => exact unbuffered.updateColumns ..
    | flush => exact unbuffered.flushBuffer
    | close => exact ⟨unbuffered.flushBuffer.auto, unbuffered.flushBuffer.empty⟩

end Unbuffered

end MemoryStore

/-- The stores that `start` can become by taking in mutations, and the mutations taken in. -/
inductive Intake (start : MemoryStore) : List Mutation → MemoryStore → Prop
  | refl : Intake start [] start
  | accept {taken : List Mutation} {store : MemoryStore} (mutation : Mutation) :
    Intake start taken store → Intake start (taken ++ [mutation]) (store.accept mutation)
  | flush {taken : List Mutation} {store : MemoryStore} :
    Intake start taken store → Intake start taken store.flushBuffer

namespace Intake

variable {start middle store : MemoryStore} {taken more : List Mutation}

theorem trans (first : Intake start taken middle) (second : Intake middle more store) :
    Intake start (taken ++ more) store := by
  induction second with
  | refl => simpa using first
  | accept mutation _ ih =>
    rw [← List.append_assoc]
    exact ih.accept mutation
  | flush _ ih => exact ih.flush

theorem config_eq (intake : Intake start taken store) : store.config = start.config := by
  induction intake with
  | refl => rfl
  | accept mutation _ ih => rw [MemoryStore.config_accept, ih]
  | flush _ ih => rw [MemoryStore.config_flushBuffer, ih]

theorem closed_eq (intake : Intake start taken store) : store.closed = start.closed := by
  induction intake with
  | refl => rfl
  | accept mutation _ ih => rw [MemoryStore.closed_accept, ih]
  | flush _ ih => rw [MemoryStore.closed_flushBuffer, ih]

theorem unbuffered (intake : Intake start taken store) (unbuffered : start.Unbuffered) :
    store.Unbuffered := by
  induction intake with
  | refl => exact unbuffered
  | accept mutation _ ih => exact ih.accept mutation
  | flush _ ih => exact ih.flushBuffer

/-- The contents show a first part of what was taken in, and the rest waits in the buffer. -/
theorem shown (intake : Intake start taken store) (empty : start.buffer = [])
    (explicit : ∀ mutation ∈ taken, mutation.Explicit) :
    ∃ applied, taken = applied ++ store.buffer ∧
      store.contents = start.contents.applyAll (applied.map (·.change)) := by
  induction intake with
  | refl => exact ⟨[], by simp [empty], rfl⟩
  | @accept taken store mutation before ih =>
    obtain ⟨applied, split, same⟩ :=
      ih fun other mem => explicit other (List.mem_append_left _ mem)
    have queued : ∀ other ∈ store.buffer ++ [mutation], other.Explicit := by
      intro other mem
      apply explicit other
      rw [split, List.append_assoc]
      exact List.mem_append_right _ mem
    rcases store.accept_cases mutation with ⟨auto, accepted⟩ | ⟨_, accepted | accepted⟩
    · have settled : store.buffer = [] :=
        (before.unbuffered ⟨before.config_eq ▸ auto, empty⟩).empty
      refine ⟨applied ++ [mutation], ?_, ?_⟩
      · simp [accepted, split, settled]
      · rw [accepted, MemoryStore.contents_apply _ (queued mutation (by simp)), same,
          List.map_append, Contents.applyAll_append]
        rfl
    · exact ⟨applied, by simp [accepted, split], by rw [accepted]; exact same⟩
    · refine ⟨applied ++ (store.buffer ++ [mutation]), ?_, ?_⟩
      · simp [accepted, split]
      · have flushed := MemoryStore.contents_flushBuffer
          { store with buffer := store.buffer ++ [mutation] } queued
        have whole : start.contents.applyAll
            ((applied ++ (store.buffer ++ [mutation])).map (·.change)) =
              store.contents.applyAll ((store.buffer ++ [mutation]).map (·.change)) := by
          rw [List.map_append, Contents.applyAll_append, ← same]
        rw [accepted, flushed, whole]
        rfl
  | @flush taken store before ih =>
    obtain ⟨applied, split, same⟩ := ih explicit
    refine ⟨taken, by simp, ?_⟩
    have queued : ∀ mutation ∈ store.buffer, mutation.Explicit := fun mutation mem =>
      explicit mutation (split ▸ List.mem_append_right _ mem)
    rw [MemoryStore.contents_flushBuffer _ queued, same, split, List.map_append,
      Contents.applyAll_append]

theorem contents_some (intake : Intake start taken store) (empty : start.buffer = [])
    (explicit : ∀ mutation ∈ taken, mutation.Explicit) {place : Place} {value : Bytes}
    (found : store.contents place = some value) :
    start.contents place = some value ∨
      ∃ mutation ∈ taken, mutation.change place = some (some value) := by
  obtain ⟨applied, split, same⟩ := intake.shown empty explicit
  rw [same] at found
  rcases Contents.applyAll_some _ found with stood | ⟨change, mem, wrote⟩
  · exact .inl stood
  · obtain ⟨mutation, member, rfl⟩ := List.mem_map.1 mem
    exact .inr ⟨mutation, split ▸ List.mem_append_left _ member, wrote⟩

theorem contents_untouched (intake : Intake start taken store) (empty : start.buffer = [])
    (explicit : ∀ mutation ∈ taken, mutation.Explicit) {place : Place}
    (untouched : ∀ mutation ∈ taken, mutation.change place = none) :
    store.contents place = start.contents place := by
  obtain ⟨applied, split, same⟩ := intake.shown empty explicit
  rw [same]
  apply Contents.applyAll_untouched
  intro change mem
  obtain ⟨mutation, member, rfl⟩ := List.mem_map.1 mem
  exact untouched mutation (split ▸ List.mem_append_left _ member)

theorem contents_eq (intake : Intake start taken store) (empty : start.buffer = [])
    (settled : store.buffer = []) (explicit : ∀ mutation ∈ taken, mutation.Explicit) :
    store.contents = start.contents.applyAll (taken.map (·.change)) := by
  obtain ⟨applied, split, same⟩ := intake.shown empty explicit
  rw [same, split, settled, List.append_nil]

end Intake

end SnapshotTable
