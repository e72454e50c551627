import SnapshotTable.Proofs.Calls

/-!
A transaction on its way, with nobody else writing. Every entry of its log was prepared from a store
that had taken in only earlier writes of the same log; that is the invariant from which both the
end by commit and the end by rollback follow.
-/

namespace SnapshotTable

set_option autoImplicit false

/-- A log and the writes it stands for. Each write was prepared from a store that had come from
`start` by mutations of the log so far. -/
inductive Written (start : MemoryStore) (tx : Transaction) (maxVersions : Nat) :
    PendingLog → List Mutation → Prop
  | empty : Written start tx maxVersions [] []
  | read {log : PendingLog} {writes : List Mutation} (request : Get) :
    Written start tx maxVersions log writes →
      Written start tx maxVersions (log ++ [.get request]) writes
  | write {log : PendingLog} {writes sent : List Mutation} {seen : MemoryStore}
    {mutation : Mutation} {entry : PendingEntry} :
    Written start tx maxVersions log writes → Intake start sent seen →
      (∀ made ∈ sent, made ∈ log.mutations) → Prepared tx maxVersions seen mutation entry →
        Written start tx maxVersions (log ++ [entry]) (writes ++ [mutation])

namespace Written

variable {start : MemoryStore} {tx : Transaction} {maxVersions : Nat} {log : PendingLog}
  {writes : List Mutation}

theorem note (written : Written start tx maxVersions log writes) {sent : List Mutation}
    {seen : MemoryStore} (intake : Intake start sent seen)
    (own : ∀ made ∈ sent, made ∈ log.mutations) {mutations : List Mutation}
    {entries : List PendingEntry} (noted : Noted tx maxVersions seen mutations entries) :
    Written start tx maxVersions (log ++ entries) (writes ++ mutations) := by
  cases noted with
  | reads requests =>
    rw [List.append_nil]
    clear own
    induction requests generalizing log with
    | nil => simpa using written
    | cons request rest ih => simpa using ih (written.read request)
  | writes prepared =>
    induction prepared generalizing log writes with
    | nil => simpa using written
    | @cons mutation entry _ _ first _ ih =>
      have longer := written.write intake own first
      have still : ∀ made ∈ sent, made ∈ PendingLog.mutations (log ++ [entry]) := by
        intro made mem
        rw [PendingLog.mutations_append]
        exact List.mem_append_left _ (own made mem)
      simpa using ih longer still

theorem explicit (written : Written start tx maxVersions log writes)
    (ordinary : tx.writePointer ≠ .latest) : ∀ entry ∈ log, entry.Explicit := by
  induction written with
  | empty => simp
  | read request _ ih =>
    intro entry mem
    rcases List.mem_append.1 mem with mem | mem
    · exact ih entry mem
    · rw [List.mem_singleton.1 mem]
      exact trivial
  | write _ _ _ prepared ih =>
    intro entry mem
    rcases List.mem_append.1 mem with mem | mem
    · exact ih entry mem
    · rw [List.mem_singleton.1 mem]
      exact prepared.explicit ordinary

theorem explicit_mutations (written : Written start tx maxVersions log writes)
    (ordinary : tx.writePointer ≠ .latest) : ∀ made ∈ log.mutations, made.Explicit := by
  intro made mem
  obtain ⟨entry, member, same⟩ := List.mem_filterMap.1 mem
  exact (written.explicit ordinary entry member).mutation same

theorem changes_eq (written : Written start tx maxVersions log writes) :
    log.mutations.map (·.change) = writes.map (·.changeAt tx.writePointer) := by
  induction written with
  | empty => rfl
  | read request _ ih => simpa [PendingLog.mutations, PendingEntry.mutation?] using ih
  | write _ _ _ prepared ih =>
    obtain ⟨made, same, change⟩ := prepared.mutation_eq
    rw [PendingLog.mutations_append, List.map_append, List.map_append, ih]
    simp [PendingLog.mutations, same, change]

theorem undo_of_value (written : Written start tx maxVersions log writes) {made : Mutation}
    (mem : made ∈ log.mutations) {place : Place} {value : Bytes}
    (change : made.change place = some (some value)) : log.findSome? (·.undo place) ≠ none := by
  induction written with
  | empty => simp [PendingLog.mutations] at mem
  | read request _ ih =>
    have earlier := ih (by simpa [PendingLog.mutations, PendingEntry.mutation?] using mem)
    simp [List.findSome?_append, Option.or_eq_none_iff, earlier]
  | @write log _ _ _ _ entry _ _ _ prepared ih =>
    rw [PendingLog.mutations_append] at mem
    rw [List.findSome?_append, ne_eq, Option.or_eq_none_iff]
    rintro ⟨before, last⟩
    rcases List.mem_append.1 mem with mem | mem
    · exact ih mem before
    · obtain ⟨other, member, same⟩ := List.mem_filterMap.1 mem
      rw [List.mem_singleton.1 member] at same
      have removed := prepared.undo_of_value same change
      simp [removed] at last

theorem version_of_value (written : Written start tx maxVersions log writes) {made : Mutation}
    (mem : made ∈ log.mutations) {place : Place} {value : Bytes}
    (change : made.change place = some (some value)) : place.version = tx.writePointer := by
  have listed : made.change ∈ writes.map (·.changeAt tx.writePointer) := by
    rw [← written.changes_eq]
    exact List.mem_map_of_mem mem
  obtain ⟨asked, _, same⟩ := List.mem_map.1 listed
  exact Mutation.version_of_changeAt (same ▸ change)

theorem undo_eq_value (written : Written start tx maxVersions log writes)
    (empty : start.buffer = []) (ordinary : tx.writePointer ≠ .latest) {place : Place}
    {value : Bytes} (restored : log.findSome? (·.undo place) = some (some value)) :
    start.contents place = some value := by
  induction written with
  | empty => cases restored
  | read request _ ih =>
    apply ih
    simpa [List.findSome?_append, PendingEntry.undo] using restored
  | @write log _ sent seen _ entry before intake own prepared ih =>
    rw [List.findSome?_append] at restored
    cases earlier : log.findSome? (·.undo place) with
    | some undone =>
      rw [earlier] at restored
      exact ih (earlier.trans restored)
    | none =>
      have captured : seen.contents place = some value :=
        prepared.undo_eq_value (by simpa [earlier] using restored)
      have explicit : ∀ made ∈ sent, made.Explicit := fun made mem =>
        before.explicit_mutations ordinary made (own made mem)
      rcases intake.contents_some empty explicit captured with stood | ⟨made, mem, wrote⟩
      · exact stood
      · exact absurd earlier (before.undo_of_value (own made mem) wrote)

theorem undo_eq_none (written : Written start tx maxVersions log writes) {place : Place}
    (removed : log.findSome? (·.undo place) = some none) : place.version = tx.writePointer := by
  induction written with
  | empty => cases removed
  | read request _ ih =>
    apply ih
    simpa [List.findSome?_append, PendingEntry.undo] using removed
  | @write log _ _ _ _ _ _ _ _ prepared ih =>
    rw [List.findSome?_append] at removed
    cases earlier : log.findSome? (·.undo place) with
    | some undone =>
      rw [earlier] at removed
      exact ih (earlier.trans removed)
    | none => exact prepared.undo_eq_none (by simpa [earlier] using removed)

theorem undo_of_removal (written : Written start tx maxVersions log writes)
    (empty : start.buffer = []) (ordinary : tx.writePointer ≠ .latest) {place : Place}
    {value : Bytes} (stood : start.contents place = some value)
    (other : place.version ≠ tx.writePointer)
    (few : start.contents.FewAbove (fun version => decide (version ≤ tx.writePointer.previous))
      place maxVersions) {made : Mutation} (mem : made ∈ log.mutations)
    (touched : made.change place ≠ none) : log.findSome? (·.undo place) ≠ none := by
  induction written generalizing made with
  | empty => simp [PendingLog.mutations] at mem
  | read request _ ih =>
    have earlier := ih (by simpa [PendingLog.mutations, PendingEntry.mutation?] using mem) touched
    rw [List.findSome?_append, ne_eq, Option.or_eq_none_iff]
    exact fun both => earlier both.1
  | @write log _ sent seen _ entry before intake own prepared ih =>
    rw [List.findSome?_append, ne_eq, Option.or_eq_none_iff]
    rintro ⟨earlier, last⟩
    have untouched : ∀ made ∈ PendingLog.mutations log, made.change place = none := by
      intro made mem
      by_contra change
      exact ih mem change earlier
    rw [PendingLog.mutations_append] at mem
    rcases List.mem_append.1 mem with mem | mem
    · exact touched (untouched made mem)
    obtain ⟨_, member, same⟩ := List.mem_filterMap.1 mem
    rw [List.mem_singleton.1 member] at same
    have explicit : ∀ made ∈ sent, made.Explicit := fun made mem =>
      before.explicit_mutations ordinary made (own made mem)
    have stillThere : seen.contents place = some value := by
      rw [intake.contents_untouched empty explicit, stood]
      exact fun made mem => untouched made (own made mem)
    -- The cells above the place that the capture could see stood there at the start as well.
    have fewSeen : seen.contents.FewAbove
        (fun version => decide (version ≤ tx.writePointer.previous)) place maxVersions := by
      intro above distinct admitted
      apply few above distinct
      intro version mem
      obtain ⟨newer, below, present⟩ := admitted version mem
      refine ⟨newer, below, ?_⟩
      obtain ⟨there, found⟩ := Option.isSome_iff_exists.1 present
      rcases intake.contents_some empty explicit found with stood | ⟨made, mem, wrote⟩
      · exact Option.isSome_iff_exists.2 ⟨_, stood⟩
      · have atPointer := before.version_of_value (own made mem) wrote
        exact absurd atPointer (Version.ne_of_le_previous newer (by simpa using below))
    have undone := prepared.undo_of_removal same touched stillThere other fewSeen
    exact undone (by simpa using last)

/-- Once some of a log's mutations were sent and the log was undone, what stands at a place is what
stood there at the start, unless that stood at the write pointer or was too old to be captured. -/
theorem restores (written : Written start tx maxVersions log writes) (empty : start.buffer = [])
    (ordinary : tx.writePointer ≠ .latest) {sent : List Mutation}
    (own : ∀ made ∈ sent, made ∈ log.mutations) (place : Place) (value : Bytes) :
    let after := (log.findSome? (·.undo place)).getD
      (start.contents.applyAll (sent.map (·.change)) place)
    (after = some value → start.contents place = some value) ∧
    (start.contents place = some value → place.version ≠ tx.writePointer →
      ((∃ made ∈ log.mutations, made.change place ≠ none) →
        start.contents.FewAbove (fun version => decide (version ≤ tx.writePointer.previous)) place
          maxVersions) →
      after = some value) := by
  intro after
  constructor
  · intro found
    cases undone : log.findSome? (·.undo place) with
    | some restored =>
      simp only [after, undone, Option.getD_some] at found
      exact written.undo_eq_value empty ordinary (found ▸ undone)
    | none =>
      simp only [after, undone, Option.getD_none] at found
      rcases Contents.applyAll_some _ found with stood | ⟨change, mem, wrote⟩
      · exact stood
      · obtain ⟨made, member, rfl⟩ := List.mem_map.1 mem
        exact absurd undone (written.undo_of_value (own made member) wrote)
  · intro stood other few
    cases undone : log.findSome? (·.undo place) with
    | none =>
      simp only [after, undone, Option.getD_none]
      rw [Contents.applyAll_untouched, stood]
      intro change mem
      obtain ⟨made, member, rfl⟩ := List.mem_map.1 mem
      by_contra touched
      have mine := own made member
      exact written.undo_of_removal empty ordinary stood other (few ⟨made, mine, touched⟩) mine
        touched undone
    | some restored =>
      simp only [after, undone, Option.getD_some]
      cases restored with
      | none => exact absurd (written.undo_eq_none undone) other
      | some captured => exact (written.undo_eq_value empty ordinary undone).symm.trans stood

end Written

end SnapshotTable
