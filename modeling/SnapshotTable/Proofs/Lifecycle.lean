import SnapshotTable.Proofs.Calls
import SnapshotTable.Proofs.Descriptor
import SnapshotTable.Proofs.Reading
import SnapshotTable.Sample

/-!
The states of a table that calls of any kind lead to. A bound table has a valid transaction, and each
entry of its log is a read or a write as that transaction makes it; from this follows how the entries
look, that they carry the transaction's descriptor, and that no later call meets a codec error. The
store plays no part in it, so it may be any store, and another one at every call.
-/

namespace SnapshotTable

set_option autoImplicit false

theorem Version.toNat_previous (version : Version) :
    version.previous.toNat = version.toNat - 1 := by
  rw [previous]
  split
  · rename_i same
    rw [same]
    rfl
  · rename_i other
    apply toNat_sub_one
    have differ : version.toNat ≠ zero.toNat := fun same => other (ext_toNat same)
    exact Nat.pos_of_ne_zero differ

theorem Descriptor.attached?_attach {ρ : Type} [Attributed ρ]
    (keeps : ∀ (request : ρ) (all : Attributes),
      Attributed.attributes (Attributed.withAttributes request all) = all)
    {tx : Transaction} (valid : tx.validate = .ok ()) {request attached : ρ}
    (done : attach tx request = .ok attached) : attached? attached = .ok (some tx) := by
  have found : Attributed.attribute? attached attributeKey = some (wire tx).write := by
    rw [attach_ok done, Attributed.attribute?, Attributed.setAttribute, keeps,
      SortedMap.find?_insert_eq, if_pos rfl]
  simp only [attached?, found, decode_write valid]
  rfl

namespace PendingEntry

/-- The transaction that the descriptor on a logged request names. -/
def attached? : PendingEntry → Except CodecError (Option Transaction)
  | get request => Descriptor.attached? request
  | put request => Descriptor.attached? request
  | delete request _ _ => Descriptor.attached? request

/-- How the entries of a transaction's log look. Puts and deletes are at the write pointer, deletes
take whole columns, and what they captured stands below the write pointer. -/
def Stamped (tx : Transaction) : PendingEntry → Prop
  | get _ => True
  | put request => request.cells ≠ [] ∧ request.timestamp = tx.writePointer ∧
      ∀ cell ∈ request.cells, cell.version = tx.writePointer
  | delete request preImage undoImage => request.timestamp = tx.writePointer ∧
      (∀ scope ∈ request.scopes,
        (∃ named, scope = .family named) ∨ ∃ named, scope = .column named) ∧
      (∀ cell ∈ undoImage.cells, cell.version.toNat ≤ tx.writePointer.toNat - 1) ∧
      preImage.row = undoImage.row ∧
      preImage.cells = undoImage.cells.filter fun cell => tx.sees cell.version

/-- An entry as a transaction makes it: a read held to its snapshot, or a prepared write. -/
inductive Recorded (tx : Transaction) : PendingEntry → Prop
  | read {request stamped : Get} :
    tx.snapshotGet request = .ok stamped → Recorded tx (.get stamped)
  | write {maxVersions : Nat} {store : MemoryStore} {mutation : Mutation} {entry : PendingEntry} :
    Prepared tx maxVersions store mutation entry → Recorded tx entry

theorem Recorded.stamped {tx : Transaction} {entry : PendingEntry} (recorded : entry.Recorded tx) :
    entry.Stamped tx := by
  cases recorded with
  | read => trivial
  | write prepared =>
    cases prepared with
    | put nonempty made =>
      have timestamp := congrArg Put.timestamp (Descriptor.attach_ok made)
      obtain ⟨_, cells⟩ := Transaction.stampPut_ok made
      refine ⟨by simpa [cells] using nonempty, timestamp, fun cell mem => ?_⟩
      rw [cells] at mem
      obtain ⟨given, _, rfl⟩ := List.mem_map.1 mem
      rfl
    | delete read made =>
      obtain ⟨_, timestamp, scopes⟩ := Transaction.stampDelete_ok made
      refine ⟨timestamp, fun scope mem => ?_, fun cell mem => ?_, rfl, rfl⟩
      · rw [scopes] at mem
        obtain ⟨given, _, rfl⟩ := List.mem_map.1 mem
        cases given <;> simp [Transaction.stampScope]
      · have seen := (MemoryStore.contents_of_mem_get mem).2.2
        simp only [Filter.admitsVersion, (Transaction.preImageGet_ok read).2, Option.all_some,
          Bool.and_eq_true, decide_eq_true_eq] at seen
        rw [← Version.toNat_previous]
        exact Version.le_iff.1 seen.1

theorem Recorded.attached? {tx : Transaction} {entry : PendingEntry}
    (recorded : entry.Recorded tx) (valid : tx.validate = .ok ()) :
    entry.attached? = .ok (some tx) := by
  cases recorded with
  | read made => exact Descriptor.attached?_attach (fun _ _ => rfl) valid made
  | write prepared =>
    cases prepared with
    | put _ made => exact Descriptor.attached?_attach (fun _ _ => rfl) valid made
    | delete _ made => exact Descriptor.attached?_attach (fun _ _ => rfl) valid made

end PendingEntry

namespace Table

/-- The tables that a new one becomes by calls, each of them over some store. -/
inductive Reached (σ : Type) [CellStore σ] : Table → Prop
  | new (config : TableConfig) : Reached σ { config := config }
  | call {table : Table} (reached : Reached σ table) (store : σ) (made : TableCall) :
    Reached σ (table.perform store made).2.1

/-- A bound transaction is valid, and it has made the entries of the log. -/
structure WellFormed (table : Table) : Prop where
  valid : ∀ binding, table.binding = some binding → binding.tx.validate = .ok ()
  recorded : ∀ binding, table.binding = some binding →
    ∀ entry ∈ binding.log, entry.Recorded binding.tx

/-- What a call adds to the log, if it adds anything, the transaction has made. -/
def Extends (tx : Transaction) (table next : Table) : Prop :=
  ∃ entries, next = table.extendLog entries ∧ ∀ entry ∈ entries, entry.Recorded tx

theorem Extends.refl (tx : Transaction) (table : Table) : table.Extends tx table :=
  ⟨[], table.extendLog_nil.symm, by simp⟩

section Calls

variable {σ : Type} {table : Table} {tx : Transaction} {log : PendingLog}
  (bound : table.binding = some ⟨tx, log⟩)

include bound

theorem extends_of_reading {ρ α β : Type} {make : Transaction → β → Except CodecError ρ}
    {gets : ρ → List Get} {request : β}
    (recorded : ∀ stamped, make tx request = .ok stamped →
      ∀ get ∈ gets stamped, (PendingEntry.get get).Recorded tx)
    (perform : ρ → σ → Except StoreError α × σ) (store : σ) :
    Extends tx table (table.reading (table.made make request) gets perform store).2.1 := by
  rw [made_of_bound bound]
  cases made : make tx request with
  | error error => exact .refl tx table
  | ok stamped =>
    simp only [Except.mapError, reading]
    split
    · exact .refl tx table
    · rw [recordReads]
      split
      · refine ⟨_, rfl, fun entry mem => ?_⟩
        obtain ⟨get, member, rfl⟩ := List.mem_map.1 mem
        exact recorded stamped made get member
      · exact .refl tx table

theorem extends_of_get {α : Type} (perform : Get → σ → Except StoreError α × σ) (request : Get)
    (store : σ) : Extends tx table (table.reading (table.made Transaction.snapshotGet request)
      (fun get => [get]) perform store).2.1 := by
  refine extends_of_reading bound (fun stamped made get mem => ?_) perform store
  rw [List.mem_singleton.1 mem]
  exact .read made

variable [CellStore σ]

theorem extends_of_getMany (requests : List Get) (store : σ) :
    Extends tx table (table.getMany requests store).2.1 := by
  refine extends_of_reading bound (fun stamped made get mem => ?_) _ store
  obtain ⟨request, _, same⟩ := mem_of_mapM_ok made get mem
  exact .read same

theorem extends_of_scan (request : Scan) (store : σ) :
    Extends tx table (table.scan request store).2.1 :=
  extends_of_reading bound (fun _ _ _ mem => by cases mem) _ store

variable [MemoryLayer σ]

theorem extends_of_write (mutations : List Mutation) (store : σ) :
    Extends tx table (table.write mutations store).2.1 := by
  obtain ⟨entries, same, prepared⟩ := write_cases (bound_eq_ok bound) mutations store
  exact ⟨entries, same, forall_of_forall₂ (fun _ _ made => .write made) prepared⟩

theorem extends_of_inside {call : TableCall} (inside : call.isInside) (store : σ) :
    Extends tx table (table.perform store call).2.1 := by
  cases call with
  | get request => exact extends_of_get bound _ request store
  | holds request => exact extends_of_get bound _ request store
  | getMany requests => exact extends_of_getMany bound requests store
  | scan request => exact extends_of_scan bound request store
  | scanFamily family => exact extends_of_scan bound _ store
  | scanColumn column => exact extends_of_scan bound _ store
  | put request => exact extends_of_write bound _ store
  | putMany requests => exact extends_of_write bound _ store
  | delete request => exact extends_of_write bound _ store
  | deleteMany requests => exact extends_of_write bound _ store
  | mutateRow request => exact extends_of_write bound _ store
  | changeDescriptor => exact .refl tx table
  | changes => exact .refl tx table
  | commit => exact .refl tx table
  | _ => simp [TableCall.isInside, TableCall.isTransactional] at inside

end Calls

variable {σ : Type} [CellStore σ]

theorem binding_rollback (table : Table) (store : σ) :
    (table.rollback store).2.1.binding = none := by
  rw [rollback]
  split
  · rename_i unbound
    exact unbound
  · rfl

variable [MemoryLayer σ]

/-- All that a call can do to a table's binding: nothing, take it away, extend the log of a bound
transaction, or bind a valid transaction with an empty log. -/
theorem binding_cases (table : Table) (store : σ) (call : TableCall) :
    let next := (table.perform store call).2.1
    next.binding = table.binding ∨ next.binding = none ∨
      (∃ tx log entries, table.binding = some ⟨tx, log⟩ ∧
        next.binding = some ⟨tx, log ++ entries⟩ ∧ ∀ entry ∈ entries, entry.Recorded tx) ∨
      ∃ tx, tx.validate = .ok () ∧ next.binding = some ⟨tx, []⟩ := by
  intro next
  -- A call inside a transaction can do no more than add to the log; the others are few.
  by_cases inside : call.isInside
  · cases bound : table.binding with
    | none => exact .inr (.inl (perform_of_unbound bound (.inl inside) store).1)
    | some binding =>
      obtain ⟨entries, same, recorded⟩ := extends_of_inside bound inside store
      refine .inr (.inr (.inl ⟨_, _, entries, rfl, ?_, recorded⟩))
      rw [← extendLog_bound bound entries, ← same]
  · cases call with
    | bind tx =>
      rcases table.bind_cases tx with same | ⟨valid, bound⟩
      · exact .inl (congrArg Table.binding same)
      · exact .inr (.inr (.inr ⟨tx, valid, bound⟩))
    | postCommit => exact .inr (.inl rfl)
    | rollback => exact .inr (.inl (table.binding_rollback store))
    | checkAndPut => exact .inl rfl
    | checkAndDelete => exact .inl rfl
    | append => exact .inl rfl
    | increment => exact .inl rfl
    | incrementColumn => exact .inl rfl
    | allowNonTransactional => exact .inl rfl
    | _ => simp [TableCall.isInside, TableCall.isTransactional] at inside

theorem WellFormed.of_unbound {table : Table} (unbound : table.binding = none) :
    table.WellFormed where
  valid := fun binding bound => by
    rw [unbound] at bound
    cases bound
  recorded := fun binding bound => by
    rw [unbound] at bound
    cases bound

theorem WellFormed.perform {table : Table} (wellFormed : table.WellFormed) (store : σ)
    (call : TableCall) : (table.perform store call).2.1.WellFormed := by
  rcases table.binding_cases store call with
    same | unbound | ⟨tx, log, entries, bound, longer, recorded⟩ | ⟨tx, valid, bound⟩
  · exact ⟨fun binding still => wellFormed.valid binding (same ▸ still),
      fun binding still => wellFormed.recorded binding (same ▸ still)⟩
  · exact .of_unbound unbound
  · constructor
    · intro binding still
      cases longer.symm.trans still
      have valid := wellFormed.valid _ bound
      exact valid
    · intro binding still
      cases longer.symm.trans still
      intro entry mem
      rcases List.mem_append.1 mem with mem | mem
      · have earlier := wellFormed.recorded _ bound entry mem
        exact earlier
      · exact recorded entry mem
  · constructor
    · intro binding still
      cases bound.symm.trans still
      exact valid
    · intro binding still
      cases bound.symm.trans still
      simp

theorem Reached.wellFormed {table : Table} (reached : Reached σ table) : table.WellFormed := by
  induction reached with
  | new config => exact .of_unbound rfl
  | call _ store made ih => exact ih.perform store made

end Table

/-- The error is the codec's, or a failed rollback's whose first failure is. -/
def TableError.isCodec : TableError → Bool
  | codec _ => true
  | rollbackPartialFailure _ first => first.isCodec
  | _ => false

namespace Table

/-- The result is no error of the codec. -/
def CodecFree {α : Type} (result : Except TableError α) : Prop :=
  ∀ error, result = .error error → error.isCodec = false

namespace CodecFree

theorem of_ok {α : Type} (value : α) : CodecFree (.ok value) := by
  intro error failed
  cases failed

theorem of_error {α : Type} {error : TableError} (other : error.isCodec = false) :
    CodecFree (.error error : Except TableError α) := by
  intro same failed
  cases failed
  exact other

theorem of_store {α : Type} (result : Except StoreError α) :
    CodecFree (result.mapError .store) := by
  cases result with
  | ok value => exact .of_ok value
  | error error => exact .of_error rfl

theorem pass {α β : Type} {error : TableError} (free : CodecFree (.error error : Except _ α)) :
    CodecFree (.error error : Except _ β) :=
  .of_error (free error rfl)

theorem bind {α β : Type} {result : Except TableError α} {next : α → Except TableError β}
    (free : CodecFree result) (later : ∀ value, CodecFree (next value)) :
    CodecFree (result.bind next) := by
  cases result with
  | error error => exact free.pass
  | ok value => exact later value

end CodecFree

section Errors

variable {σ : Type} {table : Table}

theorem codecFree_reading {ρ α : Type} {request : Except TableError ρ} {gets : ρ → List Get}
    {perform : ρ → σ → Except StoreError α × σ} (free : CodecFree request) (store : σ) :
    CodecFree (table.reading request gets perform store).1 := by
  cases request with
  | error error => exact free.pass
  | ok made =>
    simp only [reading]
    split
    · exact .of_error rfl
    · exact .of_ok _

theorem codecFree_made (wellFormed : table.WellFormed) {α ρ : Type}
    {make : Transaction → α → Except CodecError ρ} {request : α}
    (makes : ∀ tx : Transaction, tx.validate = .ok () → ∃ made, make tx request = .ok made) :
    CodecFree (table.made make request) := by
  cases bound : table.binding with
  | none =>
    simp only [made, Table.bound, bound]
    exact .of_error rfl
  | some binding =>
    obtain ⟨stamped, same⟩ := makes _ (wellFormed.valid _ bound)
    simp only [made, Table.bound, bound, same]
    exact .of_ok stamped

theorem codecFree_snapshotGet (wellFormed : table.WellFormed) (request : Get) :
    CodecFree (table.made Transaction.snapshotGet request) :=
  codecFree_made wellFormed fun _ valid => ⟨_, Descriptor.attach_of_valid valid _⟩

theorem codecFree_snapshotScan (wellFormed : table.WellFormed) (request : Scan) :
    CodecFree (table.made Transaction.snapshotScan request) :=
  codecFree_made wellFormed fun _ valid => ⟨_, Descriptor.attach_of_valid valid _⟩

theorem codecFree_snapshotGets (wellFormed : table.WellFormed) (requests : List Get) :
    CodecFree (table.made (fun tx => List.mapM tx.snapshotGet) requests) :=
  codecFree_made wellFormed fun _ valid => ⟨_, Transaction.snapshotGets_of_valid valid requests⟩

theorem codecFree_preparePut {tx : Transaction} (valid : tx.validate = .ok ()) (put : Put) :
    CodecFree (preparePut tx put) := by
  rw [preparePut]
  split
  · exact .of_error rfl
  · rw [Transaction.stampPut, Descriptor.attach_of_valid valid]
    exact .of_ok _

theorem codecFree_changeDescriptor (wellFormed : table.WellFormed) :
    CodecFree table.changeDescriptor := by
  cases bound : table.binding with
  | none =>
    simp only [changeDescriptor, Table.bound, bound]
    exact .of_error rfl
  | some binding =>
    simp only [changeDescriptor, Table.bound, bound,
      Descriptor.encode_of_valid (wellFormed.valid _ bound)]
    exact .of_ok _

theorem codecFree_changes (wellFormed : table.WellFormed) : CodecFree table.changes := by
  have free := codecFree_changeDescriptor wellFormed
  rw [changes]
  cases known : table.changeDescriptor with
  | error error => exact (known ▸ free).pass
  | ok bytes => exact .of_ok _

theorem codecFree_counterOf (column : Column) (result : RowResult) :
    CodecFree (counterOf column result) := by
  rw [counterOf]
  split
  · exact .of_store _
  · exact .of_error rfl

variable [CellStore σ]

theorem codecFree_prepareDelete {tx : Transaction} (valid : tx.validate = .ok ())
    (maxVersions : Nat) (delete : Delete) (store : σ) :
    CodecFree (prepareDelete tx maxVersions delete store).1 := by
  simp only [prepareDelete, Transaction.preImageGet, Transaction.stampDelete,
    Descriptor.attach_of_valid valid]
  split
  · exact .of_error rfl
  · exact .of_ok _

theorem codecFree_prepare (wellFormed : table.WellFormed) (mutation : Mutation) (store : σ) :
    CodecFree (table.prepare mutation store).1 := by
  cases bound : table.binding with
  | none =>
    simp only [prepare, Table.bound, bound]
    exact .of_error rfl
  | some binding =>
    have valid := wellFormed.valid _ bound
    simp only [prepare, Table.bound, bound]
    cases mutation with
    | put request => exact codecFree_preparePut valid request
    | delete request => exact codecFree_prepareDelete valid _ request store

theorem codecFree_prepareAll (wellFormed : table.WellFormed) (mutations : List Mutation)
    (store : σ) : CodecFree (table.prepareAll mutations store).1 := by
  induction mutations generalizing store with
  | nil => exact .of_ok _
  | cons mutation rest ih =>
    have first := codecFree_prepare wellFormed mutation store
    rw [prepareAll]
    split
    · rename_i eq
      rw [eq] at first
      exact first.pass
    · rename_i next _
      have later := ih next
      split
      · rename_i eq
        rw [eq] at later
        exact later.pass
      · exact .of_ok _

theorem codecFree_write (wellFormed : table.WellFormed) (mutations : List Mutation) (store : σ) :
    CodecFree (table.write mutations store).1 := by
  have prepared := codecFree_prepareAll wellFormed mutations store
  rw [write]
  split
  · rename_i eq
    rw [eq] at prepared
    exact prepared.pass
  · exact .of_ok _

theorem codecFree_bypass (table : Table) (operation : String) (call : StoreCall) (store : σ) :
    CodecFree (table.bypass operation call store).1 := by
  rw [bypass]
  split
  · exact .of_store _
  · exact .of_error rfl

theorem codecFree_commit (table : Table) (store : σ) : CodecFree (table.commit store).1 := by
  rw [commit]
  split
  · exact .of_error rfl
  · exact .of_store _

theorem isCodec_compensate {tx : Transaction} (valid : tx.validate = .ok ())
    (entry : PendingEntry) (store : σ) :
    ∀ error ∈ (compensate tx entry store).1, error.isCodec = false := by
  intro error failed
  rcases entry.undoCall?_of_valid valid with ⟨_, call, _⟩ | ⟨_, mutation, call, _⟩
  · simp [compensate, call] at failed
  · simp only [compensate, call] at failed
    split at failed
    · cases failed
      rfl
    · cases failed

theorem isCodec_compensateAll {tx : Transaction} (valid : tx.validate = .ok ())
    (entries : List PendingEntry) (store : σ) :
    ∀ error ∈ (compensateAll tx entries store).1, error.isCodec = false := by
  induction entries generalizing store with
  | nil =>
    rw [compensateAll]
    split
    · intro error failed
      rw [List.mem_singleton.1 failed]
      rfl
    · simp
  | cons entry rest ih =>
    intro error failed
    rcases List.mem_append.1 failed with here | later
    · exact isCodec_compensate valid entry store error (Option.mem_toList.1 here)
    · exact ih _ error later

theorem codecFree_rollback (wellFormed : table.WellFormed) (store : σ) :
    CodecFree (table.rollback store).1 := by
  cases bound : table.binding with
  | none =>
    simp only [rollback, bound]
    exact .of_error rfl
  | some binding =>
    have failures := isCodec_compensateAll (wellFormed.valid _ bound) binding.log.reverse store
    simp only [rollback, bound]
    generalize (compensateAll binding.tx binding.log.reverse store).1 = failed at failures
    cases failed with
    | nil => exact .of_ok ()
    | cons first rest => exact .of_error (failures first (List.mem_cons_self ..))

theorem codecFree_close (store : σ) : CodecFree (Table.close store).1 := by
  rw [Table.close]
  split
  · exact .of_error rfl
  · exact .of_store _

/-- The codec runs only under a transaction that has been validated, so it fails in `bind` alone. -/
theorem codecFree_perform (wellFormed : table.WellFormed) {call : TableCall}
    (other : ∀ tx, call ≠ .bind tx) (store : σ) : CodecFree (table.perform store call).1 := by
  cases call with
  | bind tx => exact absurd rfl (other tx)
  | get request => exact codecFree_reading (codecFree_snapshotGet wellFormed request) store
  | holds request => exact codecFree_reading (codecFree_snapshotGet wellFormed request) store
  | getMany requests => exact codecFree_reading (codecFree_snapshotGets wellFormed requests) store
  | scan request => exact codecFree_reading (codecFree_snapshotScan wellFormed request) store
  | scanFamily family => exact codecFree_reading (codecFree_snapshotScan wellFormed _) store
  | scanColumn column => exact codecFree_reading (codecFree_snapshotScan wellFormed _) store
  | put request => exact codecFree_write wellFormed _ store
  | putMany requests => exact codecFree_write wellFormed _ store
  | delete request => exact codecFree_write wellFormed _ store
  | deleteMany requests => exact codecFree_write wellFormed _ store
  | mutateRow request => exact codecFree_write wellFormed _ store
  | checkAndPut condition request => exact table.codecFree_bypass _ _ store
  | checkAndDelete condition request => exact table.codecFree_bypass _ _ store
  | append request => exact table.codecFree_bypass _ _ store
  | increment request => exact table.codecFree_bypass _ _ store
  | incrementColumn row column amount =>
    exact (table.codecFree_bypass _ _ store).bind (codecFree_counterOf column)
  | allowNonTransactional allow => exact .of_ok ()
  | changeDescriptor => exact codecFree_changeDescriptor wellFormed
  | changes => exact codecFree_changes wellFormed
  | commit => exact table.codecFree_commit store
  | postCommit => exact .of_ok ()
  | rollback => exact codecFree_rollback wellFormed store

end Errors

section Reached

variable {σ : Type} [CellStore σ] {table : Table}

variable [MemoryLayer σ]

/-- Whatever calls have led to a table, and whatever its stores have answered: an unbound table has
an empty log, a bound one a valid transaction that has stamped every entry of its log and marked it
with its descriptor. No second transaction is bound over a first one; a commit leaves the table as it
is, and after a rollback or the end of a commit it is unbound. Only `bind` meets codec errors. -/
theorem reached_state_sound (reached : Reached σ table) (store : σ) :
    (table.state = .unbound → table.log = []) ∧
    (∀ tx, table.transaction? = some tx → tx.validate = .ok () ∧
      ∀ entry ∈ table.log, entry.Stamped tx ∧ entry.attached? = .ok (some tx)) ∧
    (∀ tx other, table.transaction? = some tx → table.perform store (.bind other) =
      (.error (.alreadyBound tx.writePointer), table, store)) ∧
    (table.perform store .commit).2.1 = table ∧
    (table.perform store .postCommit).2.1.state = .unbound ∧
    (table.state ≠ .unbound → (table.perform store .rollback).2.1.state = .unbound) ∧
    (∀ call, (∀ tx, call ≠ .bind tx) → ∀ error,
      (table.perform store call).1 = .error error → error.isCodec = false) ∧
    ∀ error, (Table.close store).1 = .error error → error.isCodec = false := by
  have wellFormed := reached.wellFormed
  refine ⟨fun unbound => log_of_unbound (table.state_eq_unbound_iff.1 unbound),
    fun tx transaction => ?_, fun tx other transaction => ?_, rfl, rfl,
    fun _ => (state_eq_unbound_iff _).2 (table.binding_rollback store),
    fun call other => codecFree_perform wellFormed other store, codecFree_close store⟩
  · obtain ⟨binding, bound, rfl⟩ := Option.map_eq_some_iff.1 transaction
    have valid := wellFormed.valid binding bound
    rw [log_of_bound bound]
    refine ⟨valid, fun entry mem => ?_⟩
    have recorded := wellFormed.recorded binding bound entry mem
    exact ⟨recorded.stamped, recorded.attached? valid⟩
  · rw [perform, bind_of_bound transaction other]

/-- A read is recorded, a put and a delete of one version wait, and a commit has failed at its first
write: the log is still as the transaction made it, and the delete has been widened. -/
theorem reached_state_sound_after_failed_commit :
    let tx := Transaction.new ⟨4⟩ ⟨6⟩ [⟨3⟩]
    let row := Bytes.ofText "r"
    let calls : List TableCall := [.bind tx, .get { row := row },
      (Sample.RowWrite.put "r" "c" [2]).call,
      .delete { row := row, scopes := [.version Sample.column ⟨3⟩] }, .commit]
    let store : FaultyStore MemoryStore :=
      { inner := Sample.store [{ row := "r", version := 3, value := [1] }], failAllWrites := true }
    let table : Table := calls.foldl (fun table call => (table.perform store call).2.1)
      ({ config := { recordReads := true } } : Table)
    table.log.length = 3 ∧ (table.perform store .commit).1.isOk = false ∧
      (∀ entry ∈ table.log, entry.Stamped tx ∧ entry.attached? = .ok (some tx)) ∧
        ∀ error, (table.perform store .rollback).1 = .error error → error.isCodec = false := by
  intro tx row calls store table
  have reached : Reached (FaultyStore MemoryStore) table :=
    (((((Reached.new _).call store _).call store _).call store _).call store _).call store _
  obtain ⟨_, bound, _, _, _, _, codecFree, _⟩ := reached_state_sound reached store
  exact ⟨by decide +kernel, by decide +kernel, (bound tx (by decide +kernel)).2,
    codecFree .rollback (by simp)⟩

end Reached

end Table

end SnapshotTable
