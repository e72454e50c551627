import SnapshotTable.Proofs.BestEffort
import SnapshotTable.Proofs.Direct
import SnapshotTable.Proofs.Lifecycle

/-!
The rows that a transaction's writes reach. The calls that buffer writes, and those that send or undo
them, look at no rows of a memory store but those that the log changes, and change no others. So over
stores that agree in these rows they answer alike, capture the same images, and leave stores that
still agree there.
-/

namespace SnapshotTable

set_option autoImplicit false

def TableCall.isWriting : TableCall → Bool
  | put _ | putMany _ | delete _ | deleteMany _ | mutateRow _ | commit | postCommit | rollback => true
  | _ => false

theorem Mutation.row_of_change {mutation : Mutation} {place : Place}
    (touched : mutation.change place ≠ none) : place.row = mutation.row := by
  by_contra other
  cases mutation with
  | put write => exact touched (if_neg other)
  | delete removal => exact touched (if_neg fun both => other both.1)

theorem PendingEntry.isWrite_of_mutation? {entry : PendingEntry} {mutation : Mutation}
    (sends : entry.mutation? = some mutation) : entry.isWrite ∧ entry.row = mutation.row := by
  cases entry <;> cases sends <;> exact ⟨rfl, rfl⟩

namespace PendingLog

theorem mem_foldl_touch (seen rows : List Bytes) (row : Bytes) :
    row ∈ rows.foldl touch seen ↔ row ∈ seen ∨ row ∈ rows := by
  induction rows generalizing seen with
  | nil => simp
  | cons next rest ih =>
    rw [List.foldl_cons, ih, List.mem_cons, touch]
    by_cases known : seen.contains next
    · rw [if_pos known]
      have mem : next ∈ seen := by simpa using known
      constructor
      · rintro (old | later)
        · exact .inl old
        · exact .inr (.inr later)
      · rintro (old | rfl | later)
        · exact .inl old
        · exact .inl mem
        · exact .inr later
    · rw [if_neg known, List.mem_append, List.mem_singleton, or_assoc]

theorem mem_changedRows_iff (log : PendingLog) (row : Bytes) :
    row ∈ log.changedRows ↔ ∃ entry ∈ log, entry.isWrite ∧ entry.row = row := by
  rw [changedRows, mem_foldl_touch]
  simp [and_assoc]

end PendingLog

/-- The stores hold the same in some rows, and both are open or both closed. -/
structure MemoryStore.AgreeIn (rows : Bytes → Prop) (store other : MemoryStore) : Prop where
  closed : store.closed = other.closed
  contents : ∀ place : Place, rows place.row → store.contents place = other.contents place

namespace MemoryStore.AgreeIn

variable {rows fewer : Bytes → Prop} {store other third : MemoryStore}

theorem refl (rows : Bytes → Prop) (store : MemoryStore) : store.AgreeIn rows store :=
  ⟨rfl, fun _ _ => rfl⟩

theorem symm (agree : store.AgreeIn rows other) : other.AgreeIn rows store :=
  ⟨agree.closed.symm, fun place inside => (agree.contents place inside).symm⟩

theorem trans (agree : store.AgreeIn rows other) (agree' : other.AgreeIn rows third) :
    store.AgreeIn rows third :=
  ⟨agree.closed.trans agree'.closed,
    fun place inside => (agree.contents place inside).trans (agree'.contents place inside)⟩

theorem imp (agree : store.AgreeIn rows other) (implies : ∀ row, fewer row → rows row) :
    store.AgreeIn fewer other :=
  ⟨agree.closed, fun place inside => agree.contents place (implies place.row inside)⟩

theorem get {request : Get} (agree : store.AgreeIn (· = request.row) other) :
    store.get request = other.get request :=
  MemoryStore.get_congr fun _ _ _ _ => agree.contents _ rfl

end MemoryStore.AgreeIn

structure MemoryStore.Undergoes (store : MemoryStore) (change : Change) (next : MemoryStore) :
    Prop where
  unbuffered : next.Unbuffered
  closed : next.closed = store.closed
  contents : ∀ place, next.contents place =
    if store.closed then store.contents place else (change place).getD (store.contents place)

namespace MemoryStore.Undergoes

variable {rows : Bytes → Prop} {store other next next' : MemoryStore} {change : Change}

theorem nothing (unbuffered : store.Unbuffered)
    (idle : store.closed ∨ ∀ place, change place = none) : store.Undergoes change store where
  unbuffered := unbuffered
  closed := rfl
  contents := fun place => by
    rcases idle with closed | untouched
    · rw [if_pos closed]
    · rw [untouched, Option.getD_none, ite_self]

theorem of_open (unbuffered : next.Unbuffered) (opened : store.closed = false)
    (still : next.closed = false)
    (changed : ∀ place, next.contents place = (change place).getD (store.contents place)) :
    store.Undergoes change next where
  unbuffered := unbuffered
  closed := still.trans opened.symm
  contents := fun place => by
    rw [opened]
    exact changed place

theorem agree (undergoes : store.Undergoes change next) (undergoes' : other.Undergoes change next')
    (agree : store.AgreeIn rows other) : next.AgreeIn rows next' where
  closed := undergoes.closed.trans (agree.closed.trans undergoes'.closed.symm)
  contents := fun place inside => by
    rw [undergoes.contents, undergoes'.contents, agree.closed, agree.contents place inside]

theorem agree_outside (undergoes : store.Undergoes change next)
    (outside : ∀ place, change place ≠ none → ¬rows place.row) : next.AgreeIn rows store where
  closed := undergoes.closed
  contents := fun place inside => by
    have untouched : change place = none := by
      by_contra touched
      exact outside place touched inside
    rw [undergoes.contents, untouched, Option.getD_none, ite_self]

end MemoryStore.Undergoes

namespace Table

variable {table : Table} {store other : MemoryStore}

/-- Whether a mutation can be prepared has nothing to do with what the store holds, and what is
prepared of it only with the row. -/
theorem prepare_cases (table : Table) (closed : store.closed = other.closed) (mutation : Mutation) :
    (∃ error, table.prepare mutation store = (.error error, store) ∧
        table.prepare mutation other = (.error error, other)) ∨
      ∃ entry entry', table.prepare mutation store = (.ok entry, store) ∧
        table.prepare mutation other = (.ok entry', other) ∧ entry.isWrite ∧
          (store.AgreeIn (· = entry.row) other → entry = entry') := by
  cases bound : table.bound with
  | error error => exact .inl ⟨error, by rw [prepare, bound], by rw [prepare, bound]⟩
  | ok tx =>
    cases mutation with
    | put request =>
      simp only [prepare, bound]
      cases made : preparePut tx request with
      | error error => exact .inl ⟨error, rfl, rfl⟩
      | ok entry =>
        refine .inr ⟨entry, entry, rfl, rfl, ?_, fun _ => rfl⟩
        rw [preparePut] at made
        split at made
        · cases made
        · cases stamp : tx.stampPut request <;> rw [stamp] at made <;> cases made
          rfl
    | delete request =>
      simp only [prepare, bound, prepareDelete, MemoryStore.get_eq]
      cases captured : tx.preImageGet request.row table.config.preImageMaxVersions with
      | error error => exact .inl ⟨_, rfl, rfl⟩
      | ok read =>
        rw [← closed]
        cases store.closed with
        | true => exact .inl ⟨_, rfl, rfl⟩
        | false =>
          cases stamp : tx.stampDelete request with
          | error error => exact .inl ⟨_, rfl, rfl⟩
          | ok stamped =>
            refine .inr ⟨_, _, rfl, rfl, rfl, fun agree => ?_⟩
            have row : read.row = stamped.row :=
              (Transaction.preImageGet_ok captured).1.trans (Transaction.stampDelete_ok stamp).1.symm
            have same : store.get read = other.get read :=
              (agree.imp fun _ here => here.trans row).get
            rw [same]

theorem prepareAll_cases (table : Table) (closed : store.closed = other.closed)
    (mutations : List Mutation) :
    (∃ error, table.prepareAll mutations store = (.error error, store) ∧
        table.prepareAll mutations other = (.error error, other)) ∨
      ∃ entries entries', table.prepareAll mutations store = (.ok entries, store) ∧
        table.prepareAll mutations other = (.ok entries', other) ∧
          (∀ entry ∈ entries, entry.isWrite) ∧
            ((∀ entry ∈ entries, store.AgreeIn (· = entry.row) other) → entries = entries') := by
  induction mutations with
  | nil => exact .inr ⟨[], [], rfl, rfl, by simp, fun _ => rfl⟩
  | cons mutation rest ih =>
    rcases table.prepare_cases closed mutation with
      ⟨error, here, there⟩ | ⟨entry, entry', here, there, write, same⟩
    · exact .inl ⟨error, by rw [prepareAll, here], by rw [prepareAll, there]⟩
    · rcases ih with ⟨error, later, later'⟩ | ⟨entries, entries', later, later', writes, sames⟩
      · exact .inl ⟨error, by simp only [prepareAll, here, later],
          by simp only [prepareAll, there, later']⟩
      · refine .inr ⟨entry :: entries, entry' :: entries', by simp only [prepareAll, here, later],
          by simp only [prepareAll, there, later'], List.forall_mem_cons.2 ⟨write, writes⟩,
          fun agree => ?_⟩
        obtain ⟨first, others⟩ := List.forall_mem_cons.1 agree
        rw [same first, sames others]

theorem write_congr (mutations : List Mutation)
    (agree : store.AgreeIn (· ∈ (table.write mutations store).2.1.changedRows) other) :
    (table.write mutations store).1 = (table.write mutations other).1 ∧
      (table.write mutations store).2.1 = (table.write mutations other).2.1 := by
  rcases table.prepareAll_cases agree.closed mutations with
    ⟨error, here, there⟩ | ⟨entries, entries', here, there, writes, same⟩
  · simp only [write, here, there, and_self]
  · -- The rows of what was prepared are only known to count if there is a log that it enters.
    cases bound : table.binding with
    | none =>
      rw [write_of_unbound bound, write_of_unbound bound]
      exact ⟨rfl, rfl⟩
    | some binding =>
      have longer : (table.write mutations store).2.1 = table.extendLog entries := by
        simp only [write, here]
      have logged : (table.extendLog entries).log = binding.log ++ entries := by
        simp [extendLog, log, bound]
      have entered : entries = entries' := by
        refine same fun entry mem => agree.imp fun row here => ?_
        rw [longer, changedRows, logged, PendingLog.mem_changedRows_iff]
        exact ⟨entry, List.mem_append_right _ mem, writes entry mem, here.symm⟩
      simp only [write, here, there, entered, and_self]

theorem replay_of_closed (closed : store.closed) (log : PendingLog) :
    replay log store = (.error .closed, store) := by
  have same : CellStore.perform = MemoryStore.perform := rfl
  induction log with
  | nil => simp [replay, same, MemoryStore.perform, closed]
  | cons entry rest ih =>
    rw [replay, PendingEntry.commitCall?_eq]
    cases entry.mutation? with
    | none => exact ih
    | some mutation =>
      simp only [Option.map_some, same, MemoryStore.perform_mutation_of_closed closed]

theorem failures_of_closed {tx : Transaction} (valid : tx.validate = .ok ())
    (closed : store.closed) (entries : List PendingEntry) : (compensateAll tx entries store).1 =
      (entries.filter (·.isUndone)).map (fun _ => .store .closed) ++ [.store .closed] := by
  have same : CellStore.perform = MemoryStore.perform := rfl
  induction entries with
  | nil => simp [compensateAll, same, MemoryStore.perform, closed]
  | cons entry rest ih =>
    rcases entry.undoCall?_of_valid valid with ⟨kept, call, _⟩ | ⟨undone, mutation, call, _⟩
    · simp [compensateAll, compensate, call, ih, kept]
    · simp [compensateAll, compensate, call, ih, undone, same,
        MemoryStore.perform_mutation_of_closed closed]

/-- What a call makes of an open store: a commit sends the log's mutations, and a rollback undoes
its entries. -/
def sent (table : Table) : TableCall → Change
  | .commit => fun place => table.log.mutations.reverse.findSome? (·.change place)
  | .rollback => fun place => table.log.findSome? (·.undo place)
  | _ => fun _ => none

theorem WellFormed.made (wellFormed : table.WellFormed) {tx : Transaction} {log : PendingLog}
    (bound : table.binding = some ⟨tx, log⟩) :
    ∀ entry ∈ log, entry.Made tx (fun _ => True) := by
  intro entry mem
  cases wellFormed.recorded _ bound entry mem with
  | read => exact .read _
  | write prepared => exact .write trivial prepared

theorem row_of_sent (wellFormed : table.WellFormed) {call : TableCall} {place : Place}
    (touched : table.sent call place ≠ none) : place.row ∈ table.changedRows := by
  rw [changedRows, PendingLog.mem_changedRows_iff]
  cases call with
  | commit =>
    obtain ⟨value, found⟩ := Option.ne_none_iff_exists'.1 touched
    obtain ⟨mutation, mem, changed⟩ := List.exists_of_findSome?_eq_some found
    obtain ⟨entry, member, sends⟩ := List.mem_filterMap.1 (List.mem_reverse.1 mem)
    obtain ⟨write, row⟩ := PendingEntry.isWrite_of_mutation? sends
    exact ⟨entry, member, write, row.trans (Mutation.row_of_change (by simp [changed])).symm⟩
  | rollback =>
    obtain ⟨value, found⟩ := Option.ne_none_iff_exists'.1 touched
    obtain ⟨entry, mem, undone⟩ := List.exists_of_findSome?_eq_some found
    cases bound : table.binding with
    | none =>
      rw [log_of_unbound bound] at mem
      cases mem
    | some binding =>
      rw [log_of_bound bound] at mem
      cases wellFormed.recorded _ bound entry mem with
      | read => cases undone
      | write prepared =>
        obtain ⟨_, sends, _⟩ := prepared.mutation_eq
        have row : place.row = entry.row := prepared.row_of_undo (by simp [undone])
        rw [log_of_bound bound]
        exact ⟨entry, mem, (PendingEntry.isWrite_of_mutation? sends).1, row.symm⟩
  | _ => exact absurd rfl touched

variable {call : TableCall}

theorem writing_undergoes (wellFormed : table.WellFormed) (writing : call.isWriting)
    (unbuffered : store.Unbuffered) :
    store.Undergoes (table.sent call) (table.perform store call).2.2 := by
  have unchanged : ∀ next : MemoryStore, next = store →
      (store.closed ∨ ∀ place, table.sent call place = none) →
        store.Undergoes (table.sent call) next := by
    rintro next rfl idle
    exact .nothing unbuffered idle
  have writes : ∀ mutations : List Mutation, (table.write mutations store).2.2 = store :=
    fun mutations => table.memory_write mutations store
  cases call with
  | put request => exact unchanged _ (writes _) (.inr fun _ => rfl)
  | putMany requests => exact unchanged _ (writes _) (.inr fun _ => rfl)
  | delete request => exact unchanged _ (writes _) (.inr fun _ => rfl)
  | deleteMany requests => exact unchanged _ (writes _) (.inr fun _ => rfl)
  | mutateRow request => exact unchanged _ (writes _) (.inr fun _ => rfl)
  | postCommit => exact unchanged _ rfl (.inr fun _ => rfl)
  | commit =>
    cases bound : table.binding with
    | none =>
      refine unchanged _ (by simp only [perform, commit, bound]) (.inr fun _ => ?_)
      simp [sent, log_of_unbound bound, PendingLog.mutations]
    | some binding =>
      have valid := wellFormed.valid binding bound
      cases closed : store.closed with
      | true =>
        refine unchanged _ ?_ (.inl closed)
        simp only [perform, commit, bound, replay_of_closed closed]
      | false =>
        obtain ⟨_, contents, still, opened⟩ :=
          commit_of_open bound valid (wellFormed.made bound) unbuffered closed
        refine .of_open still closed opened fun place => (congrFun contents place).trans ?_
        rw [Contents.applyAll_last, ← List.map_reverse, List.findSome?_map, sent,
          log_of_bound bound]
        rfl
  | rollback =>
    cases bound : table.binding with
    | none =>
      refine unchanged _ (by simp only [perform, rollback, bound]) (.inr fun _ => ?_)
      simp [sent, log_of_unbound bound]
    | some binding =>
      have valid := wellFormed.valid binding bound
      have ordinary := (Transaction.validate_eq_ok_iff.1 valid).1
      cases closed : store.closed with
      | true =>
        refine unchanged _ ?_ (.inl closed)
        simp only [perform, rollback, bound, compensateAll_of_closed _ closed]
      | false =>
        obtain ⟨_, _, contents, still, opened⟩ := rollback_of_open bound valid
          (fun entry mem => (wellFormed.made bound entry mem).explicit ordinary) unbuffered closed
        refine .of_open still closed opened fun place => (contents place).trans ?_
        rw [sent, log_of_bound bound]
  | _ => simp [TableCall.isWriting] at writing

theorem commit_answer (wellFormed : table.WellFormed) {binding : Binding}
    (bound : table.binding = some binding) (store : MemoryStore) : (table.commit store).1 =
      if store.closed then .error (.store .closed) else .ok () := by
  have sendable : ∀ mutation ∈ binding.log.mutations, mutation.HasCells := by
    intro mutation mem
    obtain ⟨entry, member, sends⟩ := List.mem_filterMap.1 mem
    exact (wellFormed.made bound entry member).hasCells sends
  simp only [commit, bound]
  cases closed : store.closed with
  | true =>
    rw [replay_of_closed closed]
    rfl
  | false =>
    rw [replay_of_open closed sendable]
    rfl

theorem rollback_answer (wellFormed : table.WellFormed) {binding : Binding}
    (bound : table.binding = some binding) (store : MemoryStore) : (table.rollback store).1 =
      if store.closed then rollbackResult ((binding.log.reverse.filter (·.isUndone)).map
        (fun _ => .store .closed) ++ [.store .closed]) else .ok () := by
  have valid := wellFormed.valid binding bound
  simp only [rollback, bound]
  cases closed : store.closed with
  | true =>
    rw [failures_of_closed valid closed]
    rfl
  | false =>
    rw [compensateAll_of_open valid closed]
    rfl

/-- Over stores that agree in the rows of its log a writing call answers alike, and the table goes on
alike. -/
theorem writing_congr (wellFormed : table.WellFormed) (writing : call.isWriting)
    (agree : store.AgreeIn (· ∈ (table.perform store call).2.1.changedRows) other) :
    (table.perform store call).1 = (table.perform other call).1 ∧
      (table.perform store call).2.1 = (table.perform other call).2.1 := by
  cases call with
  | put request => exact write_congr _ agree
  | putMany requests => exact write_congr _ agree
  | delete request => exact write_congr _ agree
  | deleteMany requests => exact write_congr _ agree
  | mutateRow request => exact write_congr _ agree
  | postCommit => exact ⟨rfl, rfl⟩
  | commit =>
    refine ⟨?_, rfl⟩
    cases bound : table.binding with
    | none => simp only [perform, commit, bound]
    | some binding =>
      change (table.commit store).1 = (table.commit other).1
      rw [commit_answer wellFormed bound, commit_answer wellFormed bound, agree.closed]
  | rollback =>
    cases bound : table.binding with
    | none => simp only [perform, rollback, bound, and_self]
    | some binding =>
      constructor
      · change (table.rollback store).1 = (table.rollback other).1
        rw [rollback_answer wellFormed bound, rollback_answer wellFormed bound, agree.closed]
      · simp only [perform, rollback, bound]
  | _ => simp [TableCall.isWriting] at writing

end Table

end SnapshotTable
