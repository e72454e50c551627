import SnapshotTable.Proofs.Underway

/-!
Sessions: what is done to one table over a memory store behind a fault layer between bind and the
end of its transaction. Calls and settings of the fault layer come in any order, so commit can fail
at any write or at the flush, any number of times.
-/

namespace SnapshotTable

set_option autoImplicit false

/-- The state of a running transaction: what its log stands for, and that the store has taken in
nothing but the log's mutations. -/
structure Underway (start : MemoryStore) (tx : Transaction) (maxVersions : Nat)
    (log : PendingLog) (writes : List Mutation) (table : Table) (store : MemoryStore) : Prop where
  bound : table.binding = some ⟨tx, log⟩
  config : table.config.preImageMaxVersions = maxVersions
  written : Written start tx maxVersions log writes
  intake : ∃ sent, Intake start sent store ∧ ∀ made ∈ sent, made ∈ log.mutations

namespace Underway

variable {start : MemoryStore} {tx : Transaction} {maxVersions : Nat} {log : PendingLog}
  {writes : List Mutation} {table : Table} {σ : Type} [CellStore σ] [MemoryLayer σ] {store : σ}

theorem of_bind {bound : Table} (binds : table.bind tx = (.ok (), bound)) (start : MemoryStore) :
    tx.validate = .ok () ∧
      Underway start tx table.config.preImageMaxVersions [] [] bound start := by
  obtain ⟨_, valid, rfl⟩ := Table.bind_ok binds
  exact ⟨valid, rfl, rfl, .empty, [], .refl, by simp⟩

theorem perform (under : Underway start tx maxVersions log writes table (memory store))
    {call : TableCall} (inside : call.isInside) : ∃ log,
      Underway start tx maxVersions log (writes ++ call.accepted table store)
        (table.perform store call).2.1 (memory (table.perform store call).2.2) := by
  obtain ⟨sent, intake, own⟩ := under.intake
  rcases Table.inside_cases under.bound inside store with
    ⟨kept, entries, same, noted⟩ | ⟨rfl, same, more, first, later⟩
  · rw [under.config] at noted
    refine ⟨log ++ entries, ?_, ?_, under.written.note intake own noted, sent, ?_, ?_⟩
    · rw [same]
      exact Table.extendLog_bound under.bound entries
    · rw [same]
      exact under.config
    · rwa [kept]
    · intro made mem
      rw [PendingLog.mutations_append]
      exact List.mem_append_left _ (own made mem)
  · have nothing : TableCall.commit.accepted table store = [] := ite_self _
    rw [same, nothing, List.append_nil]
    refine ⟨log, under.bound, under.config, under.written, sent ++ more, intake.trans later, ?_⟩
    intro made mem
    rcases List.mem_append.1 mem with mem | mem
    · exact own made mem
    · exact first.subset mem

theorem attempt (under : Underway start tx maxVersions log writes table (memory store)) :
    ∃ log, Underway start tx maxVersions log writes table (memory (table.commit store).2) := by
  have inside : TableCall.commit.isInside := rfl
  obtain ⟨longer, next⟩ := under.perform inside
  have nothing : TableCall.commit.accepted table store = [] := ite_self _
  rw [nothing, List.append_nil] at next
  exact ⟨longer, next⟩

theorem rollback_intake (under : Underway start tx maxVersions log writes table (memory store))
    (ordinary : tx.writePointer ≠ .latest) :
    ∃ taken, Intake start taken (memory (table.rollback store).2.2) := by
  obtain ⟨sent, intake, _⟩ := under.intake
  obtain ⟨undone, later, _⟩ := Table.compensateAll_sends tx
    (fun entry mem => under.written.explicit ordinary entry (List.mem_reverse.1 mem)) store
  refine ⟨sent ++ undone, ?_⟩
  simp only [Table.rollback, under.bound]
  exact intake.trans later

/-- A commit that succeeds leaves the caller's writes applied once, in order, to what the store held
at the start, whatever part of them earlier attempts had sent. -/
theorem commit_contents (under : Underway start tx maxVersions log writes table (memory store))
    (empty : start.buffer = []) (ordinary : tx.writePointer ≠ .latest)
    (succeeded : (table.commit store).1 = .ok ()) :
    (memory (table.commit store).2).contents =
      start.contents.applyAll (writes.map (·.changeAt tx.writePointer)) := by
  obtain ⟨sent, intake, own⟩ := under.intake
  obtain ⟨later, settled⟩ := Table.commit_ok under.bound succeeded
  have explicit := under.written.explicit_mutations ordinary
  have all : ∀ made ∈ sent ++ log.mutations, made.Explicit := by
    intro made mem
    rcases List.mem_append.1 mem with mem | mem
    · exact explicit made (own made mem)
    · exact explicit made mem
  rw [(intake.trans later).contents_eq empty settled all, List.map_append,
    Contents.applyAll_append, ← under.written.changes_eq]
  apply Contents.applyAll_absorb
  intro change mem place touched
  obtain ⟨made, member, rfl⟩ := List.mem_map.1 mem
  exact ⟨made.change, List.mem_map_of_mem (own made member), touched⟩

theorem rollback_contents (under : Underway start tx maxVersions log writes table (memory store))
    (empty : start.buffer = []) (ordinary : tx.writePointer ≠ .latest)
    (clean : (table.rollback store).1 = .ok ()) :
    (memory (table.rollback store).2.2).buffer = [] ∧ ∃ sent : List Mutation,
      (∀ made ∈ sent, made ∈ log.mutations) ∧ ∀ place,
        (memory (table.rollback store).2.2).contents place =
          (log.findSome? (·.undo place)).getD
            (start.contents.applyAll (sent.map (·.change)) place) := by
  obtain ⟨sent, intake, own⟩ := under.intake
  have explicit := under.written.explicit ordinary
  obtain ⟨undone, later, undoes, complete⟩ := Table.compensateAll_sends tx
    (fun entry mem => explicit entry (List.mem_reverse.1 mem)) store
  simp only [Table.rollback, under.bound] at clean ⊢
  obtain ⟨settled, same⟩ := complete (Table.rollbackResult_eq_ok clean)
  have all : ∀ made ∈ sent ++ undone, made.Explicit := by
    intro made mem
    rcases List.mem_append.1 mem with mem | mem
    · exact under.written.explicit_mutations ordinary made (own made mem)
    · exact (undoes made mem).1
  refine ⟨settled, sent, own, fun place => ?_⟩
  rw [(intake.trans later).contents_eq empty settled all, List.map_append,
    Contents.applyAll_append, same, PendingLog.applyAll_undo]

/-- A rollback without failures adds nothing to what the store held at the start, and leaves out
only what stood at the write pointer or below too many newer versions. -/
theorem rollback_restores (under : Underway start tx maxVersions log writes table (memory store))
    (empty : start.buffer = []) (ordinary : tx.writePointer ≠ .latest)
    (clean : (table.rollback store).1 = .ok ()) (place : Place) (value : Bytes) :
    ((memory (table.rollback store).2.2).contents place = some value →
      start.contents place = some value) ∧
    (start.contents place = some value → place.version ≠ tx.writePointer →
      start.contents.FewAbove (fun version => decide (version ≤ tx.writePointer.previous)) place
        maxVersions →
      (memory (table.rollback store).2.2).contents place = some value) := by
  obtain ⟨_, sent, own, after⟩ := under.rollback_contents empty ordinary clean
  rw [after place]
  obtain ⟨nothingNew, kept⟩ := under.written.restores empty ordinary own place value
  exact ⟨nothingNew, fun stood other few => kept stood other fun _ => few⟩

theorem rollback_undoes (under : Underway start tx maxVersions log writes table (memory store))
    (empty : start.buffer = []) (ordinary : tx.writePointer ≠ .latest)
    (unused : start.Unused tx.writePointer) (within : start.VersionsWithin maxVersions)
    (clean : (table.rollback store).1 = .ok ()) :
    (memory (table.rollback store).2.2).contents = start.contents := by
  have restores := under.rollback_restores empty ordinary clean
  funext place
  cases before : start.contents place with
  | some value =>
    have elsewhere : place.version ≠ tx.writePointer := fun here => by
      rw [unused.contents_eq_none here] at before
      cases before
    exact (restores place value).2 before elsewhere (within.fewAbove _ before)
  | none =>
    cases after : (memory (table.rollback store).2.2).contents place with
    | none => rfl
    | some value =>
      rw [(restores place value).1 after] at before
      cases before

end Underway

end SnapshotTable
