import SnapshotTable.Proofs.Isolation

/-!
Batches of writes, over a memory store behind a layer that may refuse reads. What a write is
prepared to depends neither on what waits in the log nor on earlier reads. So a batch is accepted if
each of its elements is, and leaves what they leave one after the other; else it is refused for the
first element that is, and nothing is left of those before it.
-/

namespace SnapshotTable

set_option autoImplicit false

def Mutation.alone : Mutation → TableCall
  | put request => .put request
  | delete request => .delete request

theorem Mutation.mutations_alone (mutation : Mutation) : mutation.alone.mutations = [mutation] := by
  cases mutation <;> rfl

theorem Mutation.isBuffering_alone (mutation : Mutation) : mutation.alone.isBuffering := by
  cases mutation <;> rfl

section Outcomes

variable {ε α β : Type} {f : α → Except ε β}

theorem isOk_mapM_iff {inputs : List α} :
    (inputs.mapM f).isOk ↔ ∀ input ∈ inputs, (f input).isOk := by
  induction inputs with
  | nil => exact ⟨nofun, fun _ => rfl⟩
  | cons input rest ih =>
    rw [List.mapM_cons, List.forall_mem_cons, ← ih]
    cases first : f input with
    | error error => exact ⟨nofun, fun both => nomatch both.1⟩
    | ok output =>
      cases others : rest.mapM f with
      | error error => exact ⟨nofun, fun both => nomatch both.2⟩
      | ok outputs => exact ⟨fun _ => ⟨rfl, rfl⟩, fun _ => rfl⟩

theorem mapM_eq_error {before after : List α} {input : α} {error : ε}
    (accepted : ∀ earlier ∈ before, (f earlier).isOk) (refused : f input = .error error) :
    (before ++ input :: after).mapM f = .error error := by
  induction before with
  | nil =>
    rw [List.nil_append, List.mapM_cons, refused]
    rfl
  | cons earlier rest ih =>
    obtain ⟨first, others⟩ := List.forall_mem_cons.1 accepted
    rw [List.cons_append, List.mapM_cons, ih others]
    cases outcome : f earlier with
    | error error =>
      rw [outcome] at first
      cases first
    | ok output => rfl

end Outcomes

namespace FaultyStore

variable {σ : Type}

/-- The store after it has recorded more calls. -/
def noting (store : FaultyStore σ) (calls : List StoreCall) : FaultyStore σ :=
  { store with calls := store.calls ++ calls }

theorem noting_nil (store : FaultyStore σ) : store.noting [] = store := by simp [noting]

theorem get_noting (store : FaultyStore MemoryStore) (request : Get) (earlier : List StoreCall) :
    CellStore.get request (store.noting earlier) =
      ((CellStore.get request store).1, store.noting (earlier ++ [.get request])) := by
  have kept : (CellStore.perform (.get request) store.inner).2 = store.inner :=
    MemoryLayer.memory_get request store.inner
  change FaultyStore.perform (.get request) _ = ((FaultyStore.perform (.get request) store).1, _)
  by_cases failing : store.failReads
  · simp [perform, fault?, record, noting, StoreCall.isWrite, failing]
  · simp [perform, fault?, record, noting, StoreCall.isWrite, failing, kept]

end FaultyStore

namespace Table

section Layer

variable {σ : Type} [CellStore σ]

theorem perform_eq_write (table : Table) (store : σ) {call : TableCall}
    (buffering : call.isBuffering) :
    (table.perform store call).2 = (table.write call.mutations store).2 ∧
      (table.perform store call).1.isOk = (table.write call.mutations store).1.isOk ∧
        ∀ error, (table.perform store call).1 = .error error ↔
          (table.write call.mutations store).1 = .error error := by
  cases call with
  | put request => exact ⟨rfl, rfl, fun _ => .rfl⟩
  | putMany requests => exact ⟨rfl, rfl, fun _ => .rfl⟩
  | delete request => exact ⟨rfl, rfl, fun _ => .rfl⟩
  | deleteMany requests => exact ⟨rfl, rfl, fun _ => .rfl⟩
  | mutateRow request => exact ⟨rfl, rfl, fun _ => .rfl⟩
  | _ => cases buffering

/-- Makes the mutations one after the other, each by a call of its own. -/
def inTurn (table : Table) (store : σ) : List Mutation → Table × σ
  | [] => (table, store)
  | mutation :: rest =>
    let (table, store) := (table.perform store mutation.alone).2
    table.inTurn store rest

theorem write_single (table : Table) (mutation : Mutation) (store : σ) :
    table.write [mutation] store = match table.prepare mutation store with
      | (.error error, next) => (.error error, table, next)
      | (.ok entry, next) => (.ok (), table.extendLog [entry], next) := by
  rw [write, prepareAll]
  cases table.prepare mutation store with
  | mk outcome next => cases outcome <;> rfl

theorem prepareAll_extendLog (table : Table) (entries : List PendingEntry)
    (mutations : List Mutation) (store : σ) :
    (table.extendLog entries).prepareAll mutations store = table.prepareAll mutations store := by
  have alike : ∀ mutation (store : σ),
      (table.extendLog entries).prepare mutation store = table.prepare mutation store :=
    fun mutation store => by rw [prepare, prepare, bound_extendLog]; rfl
  induction mutations generalizing store with
  | nil => rfl
  | cons mutation rest ih => simp only [prepareAll, alike, ih]

theorem inTurn_of_prepared {mutations : List Mutation} {entries : List PendingEntry}
    {table : Table} {store next : σ}
    (prepared : table.prepareAll mutations store = (.ok entries, next)) :
    table.inTurn store mutations = (table.extendLog entries, next) := by
  induction mutations generalizing table store entries with
  | nil =>
    cases prepared
    rw [extendLog_nil]
    rfl
  | cons mutation rest ih =>
    rw [prepareAll] at prepared
    split at prepared
    · cases prepared
    · rename_i entry between first
      split at prepared
      · cases prepared
      · rename_i others last later
        cases prepared
        have step : (table.perform store mutation.alone).2 =
            (table.extendLog [entry], between) := by
          rw [(table.perform_eq_write store mutation.isBuffering_alone).1,
            mutation.mutations_alone, write_single, first]
        -- The rest is prepared from a log that holds the first entry already.
        have others := ih ((table.prepareAll_extendLog [entry] rest between).trans later)
        rw [extendLog_append] at others
        rw [inTurn, step]
        exact others

/-- A batch that is accepted leaves what its mutations leave one after the other. -/
theorem write_eq_inTurn (table : Table) (store : σ) {mutations : List Mutation}
    (accepted : (table.write mutations store).1.isOk) :
    (table.write mutations store).2 = table.inTurn store mutations := by
  rw [write] at accepted ⊢
  split at accepted
  · cases accepted
  · rename_i prepared
    rw [inTurn_of_prepared prepared]

end Layer

variable (table : Table) (store : FaultyStore MemoryStore)

theorem prepare_noting (mutation : Mutation) : ∃ reads, ∀ earlier,
    table.prepare mutation (store.noting earlier) =
      ((table.prepare mutation store).1, store.noting (earlier ++ reads)) := by
  cases bound : table.bound with
  | error error => exact ⟨[], fun earlier => by simp [prepare, bound]⟩
  | ok tx =>
    cases mutation with
    | put request => exact ⟨[], fun earlier => by simp [prepare, bound]⟩
    | delete request =>
      cases captured : tx.preImageGet request.row table.config.preImageMaxVersions with
      | error error => exact ⟨[], fun earlier => by simp [prepare, bound, prepareDelete, captured]⟩
      | ok read =>
        refine ⟨[.get read], fun earlier => ?_⟩
        simp only [prepare, bound, prepareDelete, captured, FaultyStore.get_noting]
        cases answer : CellStore.get read store with
        | mk reply next =>
          cases reply with
          | error error => rfl
          | ok image => cases tx.stampDelete request <;> rfl

theorem prepareAll_noting (mutations : List Mutation) : ∃ reads, ∀ earlier,
    table.prepareAll mutations (store.noting earlier) =
      (mutations.mapM fun mutation => (table.prepare mutation store).1,
        store.noting (earlier ++ reads)) := by
  induction mutations with
  | nil => exact ⟨[], fun earlier => by rw [List.append_nil]; rfl⟩
  | cons mutation rest ih =>
    obtain ⟨reads, first⟩ := table.prepare_noting store mutation
    obtain ⟨others, later⟩ := ih
    cases outcome : (table.prepare mutation store).1 with
    | error error =>
      -- The rest is not reached, so that its reads are not recorded.
      refine ⟨reads, fun earlier => ?_⟩
      rw [prepareAll, first, outcome, List.mapM_cons, outcome]
      rfl
    | ok entry =>
      refine ⟨reads ++ others, fun earlier => ?_⟩
      rw [prepareAll, first, outcome, List.mapM_cons, outcome]
      simp only [later, List.append_assoc]
      cases rest.mapM fun mutation => (table.prepare mutation store).1 <;> rfl

theorem perform_alone (mutation : Mutation) :
    (table.perform store mutation.alone).1.isOk = (table.prepare mutation store).1.isOk ∧
      ∀ error, (table.perform store mutation.alone).1 = .error error ↔
        (table.prepare mutation store).1 = .error error := by
  obtain ⟨_, accepted, refused⟩ := table.perform_eq_write store mutation.isBuffering_alone
  rw [accepted, mutation.mutations_alone, write_single]
  simp only [refused, mutation.mutations_alone, write_single]
  cases table.prepare mutation store with
  | mk outcome next => cases outcome <;> exact ⟨rfl, fun error => by simp⟩

theorem prepareAll_outcome (mutations : List Mutation) : (table.prepareAll mutations store).1 =
    mutations.mapM fun mutation => (table.prepare mutation store).1 := by
  obtain ⟨reads, prepared⟩ := table.prepareAll_noting store mutations
  have here := prepared []
  rw [FaultyStore.noting_nil] at here
  rw [here]

theorem isOk_write_iff (mutations : List Mutation) : (table.write mutations store).1.isOk ↔
    ∀ mutation ∈ mutations, (table.prepare mutation store).1.isOk := by
  rw [← isOk_mapM_iff, ← prepareAll_outcome, write]
  split <;> (rename_i eq; rw [eq]; exact .rfl)

theorem write_of_refused {before after : List Mutation} {mutation : Mutation} {error : TableError}
    (accepted : ∀ earlier ∈ before, (table.prepare earlier store).1.isOk)
    (refused : (table.prepare mutation store).1 = .error error) :
    (table.write (before ++ mutation :: after) store).1 = .error error ∧
      (table.write (before ++ mutation :: after) store).2.1 = table := by
  have failed := (table.prepareAll_outcome store (before ++ mutation :: after)).trans
    (mapM_eq_error accepted refused)
  rw [write]
  split
  · rename_i eq
    rw [eq] at failed
    exact ⟨congrArg Except.error (Except.error.inj failed), rfl⟩
  · rename_i eq
    rw [eq] at failed
    cases failed

end Table

/-- A batch of writes succeeds if and only if each of its elements would by itself. Then it leaves
the table and the store as its elements do one after the other, and else its error is that of the
first element that is refused and the table stays as it is. The store inside stays as it is in
either case. -/
theorem batch_acts_as_elements (table : Table) (store : FaultyStore MemoryStore) {call : TableCall}
    (buffering : call.isBuffering) :
    ((table.perform store call).1.isOk ↔
        ∀ mutation ∈ call.mutations, (table.perform store mutation.alone).1.isOk) ∧
      ((table.perform store call).1.isOk →
        (table.perform store call).2 = table.inTurn store call.mutations) ∧
      (∀ before mutation after error, call.mutations = before ++ mutation :: after →
        (∀ earlier ∈ before, (table.perform store earlier.alone).1.isOk) →
          (table.perform store mutation.alone).1 = .error error →
            (table.perform store call).1 = .error error ∧
              (table.perform store call).2.1 = table) ∧
      (table.perform store call).2.2.inner = store.inner := by
  obtain ⟨same, accepted, refused⟩ := table.perform_eq_write store buffering
  rw [same, accepted]
  refine ⟨?_, table.write_eq_inTurn store,
    fun before mutation after error split earlier rejected => ?_,
    table.memory_write call.mutations store⟩
  · rw [table.isOk_write_iff store]
    simp only [(table.perform_alone store _).1]
  · rw [refused, split]
    refine table.write_of_refused store (fun mutation mem => ?_)
      (((table.perform_alone store mutation).2 error).1 rejected)
    rw [← (table.perform_alone store mutation).1]
    exact earlier mutation mem

/-- A put, a delete and a put without cells: where reads fail the second is the first refused.
Without the last the batch is accepted where they do not. -/
theorem batch_acts_as_elements_of_mixed_row :
    let tx := Transaction.new ⟨1⟩ ⟨3⟩ []
    let store : FaultyStore MemoryStore :=
      { inner := Sample.store [{ row := "r", version := 1, value := [1] }] }
    let failing := { store with failReads := true }
    let table : Table := (({} : Table).bind tx).2
    let row := Bytes.ofText "r"
    let first : Mutation := .put (({ row := row } : Put).add Sample.column [2])
    let second : Mutation := .delete { row := row }
    let third : Mutation := .put { row := row }
    let whole : TableCall := .mutateRow ⟨row, [first, second, third], by simp; decide⟩
    let fewer : TableCall := .mutateRow ⟨row, [first, second], by simp; decide⟩
    ((table.perform failing whole).1 = .error (.store (FaultyStore.injected "read")) ∧
        (table.perform failing whole).2.1 = table) ∧
      (table.perform store fewer).2 = table.inTurn store [first, second] ∧
        (table.perform store fewer).2.1.log.length = 2 := by
  intro tx store failing table row first second third whole fewer
  have refused : (table.delete { row := row } failing).1 =
      .error (.store (FaultyStore.injected "read")) := by decide +kernel
  have accepted : (table.perform store fewer).1.isOk := by decide +kernel
  exact ⟨(@batch_acts_as_elements table failing whole rfl).2.2.1 [first] second [third] _ rfl
      (by decide +kernel) refused,
    (@batch_acts_as_elements table store fewer rfl).2.1 accepted, by decide +kernel⟩

end SnapshotTable
