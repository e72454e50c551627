import SnapshotTable.Proofs.Entry

/-!
What commit and rollback send to the store. Commit sends a first part of the log's mutations, and
all of them if it succeeds. Rollback sends the undoing of entries of the log, and of all of them,
the newest first, if nothing fails. Either leaves nothing in the buffer when it succeeds.
-/

namespace SnapshotTable.Table

set_option autoImplicit false

variable {σ : Type} [CellStore σ] [MemoryLayer σ]

theorem replay_sends (log : PendingLog) (store : σ) : ∃ sent, sent <+: log.mutations ∧
    Intake (memory store) sent (memory (replay log store).2) ∧
      ((replay log store).1 = .ok () →
        sent = log.mutations ∧ (memory (replay log store).2).buffer = []) := by
  induction log generalizing store with
  | nil =>
    refine ⟨[], List.nil_prefix, ?_⟩
    rw [replay]
    rcases MemoryLayer.perform_flush store with ⟨error, next, flushed, same⟩ | ⟨next, flushed, same⟩
    · rw [flushed, same]
      exact ⟨.refl, fun succeeded => by cases succeeded⟩
    · rw [flushed, same]
      exact ⟨.flush .refl, fun _ => ⟨rfl, MemoryStore.buffer_flushBuffer _⟩⟩
  | cons entry rest ih =>
    rw [replay, PendingEntry.commitCall?_eq]
    cases made : entry.mutation? with
    | none =>
      have skipped : PendingLog.mutations (entry :: rest) = PendingLog.mutations rest := by
        simp [PendingLog.mutations, made]
      rw [skipped]
      exact ih store
    | some mutation =>
      have headed : PendingLog.mutations (entry :: rest) =
          mutation :: PendingLog.mutations rest := by
        simp [PendingLog.mutations, made]
      rw [headed]
      simp only [Option.map_some]
      rcases MemoryLayer.perform_mutation mutation store with
        ⟨error, next, performed, same⟩ | ⟨reply, next, performed, same⟩
      · rw [performed]
        refine ⟨[], List.nil_prefix, ?_, fun succeeded => by cases succeeded⟩
        rw [same]
        exact .refl
      · rw [performed]
        obtain ⟨sent, first, intake, complete⟩ := ih next
        have accepted : Intake (memory store) [mutation] (memory next) := by
          rw [same]
          exact .accept mutation .refl
        refine ⟨mutation :: sent, List.cons_prefix_cons.2 ⟨rfl, first⟩, accepted.trans intake,
          fun succeeded => ?_⟩
        obtain ⟨all, settled⟩ := complete succeeded
        exact ⟨by rw [all], settled⟩

theorem compensate_sends (tx : Transaction) {entry : PendingEntry} (explicit : entry.Explicit)
    (store : σ) : ∃ sent, Intake (memory store) sent (memory (compensate tx entry store).2) ∧
      (∀ mutation ∈ sent, mutation.Explicit ∧ mutation.change = entry.undo) ∧
        ((compensate tx entry store).1 = none → ∀ contents : Contents,
          contents.applyAll (sent.map (·.change)) = contents.apply entry.undo) := by
  cases undo : entry.undoCall? tx with
  | error error =>
    simp only [compensate, undo]
    exact ⟨[], .refl, by simp, fun succeeded => by cases succeeded⟩
  | ok call? =>
    rcases PendingEntry.undoCall?_ok explicit undo with
      ⟨rfl, nothing⟩ | ⟨mutation, rfl, same, explicit⟩
    · simp only [compensate, undo]
      refine ⟨[], .refl, by simp, fun _ contents => ?_⟩
      funext place
      simp [Contents.applyAll, Contents.apply, nothing]
    · rcases MemoryLayer.perform_mutation mutation store with
        ⟨error, next, performed, kept⟩ | ⟨reply, next, performed, accepted⟩
      · simp only [compensate, undo, performed]
        exact ⟨[], by rw [kept]; exact .refl, by simp, fun succeeded => by cases succeeded⟩
      · simp only [compensate, undo, performed]
        refine ⟨[mutation], ?_, by simp [same, explicit], fun _ contents => by rw [← same]; rfl⟩
        rw [accepted]
        exact .accept mutation .refl

theorem compensateAll_sends (tx : Transaction) {entries : List PendingEntry}
    (explicit : ∀ entry ∈ entries, entry.Explicit) (store : σ) :
    ∃ sent, Intake (memory store) sent (memory (compensateAll tx entries store).2) ∧
      (∀ mutation ∈ sent, mutation.Explicit ∧
        ∃ entry ∈ entries, mutation.change = entry.undo) ∧
        ((compensateAll tx entries store).1 = [] →
          (memory (compensateAll tx entries store).2).buffer = [] ∧
            ∀ contents : Contents, contents.applyAll (sent.map (·.change)) =
              contents.applyAll (entries.map (·.undo))) := by
  induction entries generalizing store with
  | nil =>
    refine ⟨[], ?_⟩
    rw [compensateAll]
    rcases MemoryLayer.perform_flush store with ⟨error, next, flushed, same⟩ | ⟨next, flushed, same⟩
    · rw [flushed]
      exact ⟨by rw [same]; exact .refl, by simp, fun succeeded => by cases succeeded⟩
    · rw [flushed]
      refine ⟨by rw [same]; exact .flush .refl, by simp, fun _ => ⟨?_, fun _ => rfl⟩⟩
      rw [same]
      exact MemoryStore.buffer_flushBuffer _
  | cons entry rest ih =>
    obtain ⟨sent, intake, undoes, complete⟩ :=
      compensate_sends tx (explicit entry (List.mem_cons_self ..)) store
    obtain ⟨more, later, undoMore, completeMore⟩ :=
      ih (fun other mem => explicit other (List.mem_cons_of_mem _ mem))
        (compensate tx entry store).2
    refine ⟨sent ++ more, intake.trans later, ?_, fun succeeded => ?_⟩
    · intro mutation mem
      rcases List.mem_append.1 mem with mem | mem
      · obtain ⟨ordinary, same⟩ := undoes mutation mem
        exact ⟨ordinary, entry, List.mem_cons_self .., same⟩
      · obtain ⟨ordinary, other, member, same⟩ := undoMore mutation mem
        exact ⟨ordinary, other, List.mem_cons_of_mem _ member, same⟩
    · obtain ⟨first, others⟩ := List.append_eq_nil_iff.1 succeeded
      obtain ⟨settled, same⟩ := completeMore others
      refine ⟨settled, fun contents => ?_⟩
      rw [List.map_append, Contents.applyAll_append,
        complete (Option.toList_eq_nil_iff.1 first) contents, same]
      rfl

theorem compensate_of_open {tx : Transaction} (valid : tx.validate = .ok ())
    {store : MemoryStore} (opened : store.closed = false) (entry : PendingEntry) :
    (compensate tx entry store).1 = none ∧ (compensate tx entry store).2.closed = false := by
  have same : CellStore.perform = MemoryStore.perform := rfl
  rcases entry.undoCall?_of_valid valid with ⟨_, call, _⟩ | ⟨_, mutation, call, some⟩
  · simp only [compensate, call]
    exact ⟨trivial, opened⟩
  · obtain ⟨reply, performed⟩ := MemoryStore.perform_mutation_of_open opened some
    simp only [compensate, call, same, performed]
    simpa using opened

theorem compensateAll_of_open {tx : Transaction} (valid : tx.validate = .ok ())
    {store : MemoryStore} (opened : store.closed = false) (entries : List PendingEntry) :
    (compensateAll tx entries store).1 = [] := by
  have same : CellStore.perform = MemoryStore.perform := rfl
  induction entries generalizing store with
  | nil => simp only [compensateAll, same, MemoryStore.perform_flush_of_open opened]
  | cons entry rest ih =>
    obtain ⟨first, still⟩ := compensate_of_open valid opened entry
    simp only [compensateAll, first, ih still]
    rfl

theorem compensateAll_of_closed (tx : Transaction) {store : MemoryStore} (closed : store.closed)
    (entries : List PendingEntry) : (compensateAll tx entries store).2 = store := by
  have kept : ∀ call, (CellStore.perform call store).2 = store :=
    MemoryStore.perform_of_closed closed
  induction entries with
  | nil =>
    have flushed := kept .flush
    rw [compensateAll]
    split <;> (rename_i eq; rwa [eq] at flushed)
  | cons entry rest ih =>
    have first : (compensate tx entry store).2 = store := by
      rw [compensate]
      split
      · rfl
      · rfl
      · rename_i call _
        have performed := kept call
        split <;> (rename_i eq; rwa [eq] at performed)
    simp only [compensateAll, first]
    exact ih

theorem rollbackResult_eq_ok {failures : List TableError}
    (succeeded : rollbackResult failures = .ok ()) : failures = [] := by
  cases failures with
  | nil => rfl
  | cons first rest => cases succeeded

end SnapshotTable.Table
