import SnapshotTable.Proofs.Layer
import SnapshotTable.Sample

/-!
The write buffer of a memory store. Flushing a store that buffers gives, at any time, the store that
has made every write at once, so the buffer does no more than put off when a write shows. The clock
ticks when a write is made; since the writes are made in the order in which they came, it shows the
same in the end.
-/

namespace SnapshotTable

set_option autoImplicit false

/-- What is asked of a store that may keep writes back. -/
inductive WriteCall where
  | write (mutation : Mutation)
  | flush
  | close
deriving DecidableEq

namespace WriteCall

def call : WriteCall → StoreCall
  | write mutation => mutation.call
  | flush => .flush
  | close => .close

def settles : WriteCall → Bool
  | write _ => false
  | flush | close => true

end WriteCall

namespace MemoryStore

def runWrites (store : MemoryStore) (calls : List WriteCall) : MemoryStore :=
  calls.foldl (fun store made => (store.perform made.call).2) store

def withConfig (store : MemoryStore) (config : StoreConfig) : MemoryStore :=
  { store with config := config }

theorem writeCells_withConfig (row : Bytes) (cells : List Cell) (assigned : Option Version)
    (store : MemoryStore) (config : StoreConfig) :
    writeCells row cells assigned (store.withConfig config) =
      (writeCells row cells assigned store).withConfig config := by
  induction cells generalizing assigned store with
  | nil => rfl
  | cons cell rest ih =>
    have resolved : (store.withConfig config).resolve cell.version assigned =
        ((store.resolve cell.version assigned).1, (store.resolve cell.version assigned).2.1,
          (store.resolve cell.version assigned).2.2.withConfig config) := by
      simp only [resolve]
      split
      · cases assigned <;> rfl
      · rfl
    have inserted : ∀ (next : MemoryStore) (version : Version),
        (next.withConfig config).insertCell row cell.column version cell.value =
          (next.insertCell row cell.column version cell.value).withConfig config :=
      fun _ _ => rfl
    simp only [writeCells, resolved, inserted]
    exact ih ..

theorem apply_withConfig (store : MemoryStore) (config : StoreConfig) (mutation : Mutation) :
    (store.withConfig config).apply mutation = (store.apply mutation).withConfig config := by
  cases mutation with
  | put write =>
    exact writeCells_withConfig write.row write.cells none
      { store with rows := store.rows.alter write.row fun columns => some (columns.getD .empty) }
      config
  | delete removal => rfl

theorem flushBuffer_of_empty {store : MemoryStore} (empty : store.buffer = []) :
    store.flushBuffer = store := by
  cases store
  cases empty
  rfl

theorem flushBuffer_accept {store : MemoryStore} (manual : store.config.autoFlush = false)
    (mutation : Mutation) :
    (store.accept mutation).flushBuffer = store.flushBuffer.apply mutation := by
  have queued : { store with buffer := store.buffer ++ [mutation] }.flushBuffer =
      store.flushBuffer.apply mutation := by
    simp only [flushBuffer, List.foldl_append]
    rfl
  rcases store.accept_cases mutation with ⟨auto, _⟩ | ⟨_, same | same⟩
  · rw [manual] at auto
    cases auto
  · rw [same, queued]
  · rw [same, flushBuffer_of_empty (buffer_flushBuffer _), queued]

theorem length_buffer_accept {store : MemoryStore} (manual : store.config.autoFlush = false)
    (mutation : Mutation) :
    (store.accept mutation).buffer.length < max 1 store.config.writeBufferSize := by
  simp only [accept, manual]
  split
  · contradiction
  · split
    · rw [buffer_flushBuffer, List.length_nil]
      omega
    · rename_i room
      exact Nat.lt_of_lt_of_le (Nat.not_le.1 room) (Nat.le_max_right ..)

theorem perform_close_of_open {store : MemoryStore} (opened : store.closed = false) :
    store.perform .close = (.ok (), { store.flushBuffer with closed := true }) := by
  simp [perform, performOpen, opened]

end MemoryStore

open MemoryStore

/-- One store keeps writes back, fewer than its buffer is to hold, and the other one has made them. -/
structure Defers (size unused : Nat) (buffered direct : MemoryStore) : Prop where
  config : buffered.config = ⟨false, size⟩
  short : buffered.buffer.length < max 1 size
  settled : direct = buffered.flushBuffer.withConfig ⟨true, unused⟩
  closed : buffered.closed → buffered.buffer = []

namespace Defers

variable {size unused : Nat} {buffered direct : MemoryStore}

theorem of_config {store : MemoryStore} (empty : store.buffer = []) (size unused : Nat) :
    Defers size unused (store.withConfig ⟨false, size⟩) (store.withConfig ⟨true, unused⟩) where
  config := rfl
  short := by
    change store.buffer.length < _
    rw [empty, List.length_nil]
    omega
  settled := by
    have flushed : (store.withConfig ⟨false, size⟩).flushBuffer = store.withConfig ⟨false, size⟩ :=
      flushBuffer_of_empty empty
    rw [flushed]
    rfl
  closed := fun _ => empty

theorem manual (defers : Defers size unused buffered direct) :
    buffered.config.autoFlush = false := by
  rw [defers.config]

theorem closed_eq (defers : Defers size unused buffered direct) :
    direct.closed = buffered.closed := by
  rw [defers.settled]
  exact closed_flushBuffer buffered

theorem unbuffered (defers : Defers size unused buffered direct) : direct.Unbuffered := by
  rw [defers.settled]
  exact ⟨rfl, buffer_flushBuffer buffered⟩

theorem accept (defers : Defers size unused buffered direct) (opened : buffered.closed = false)
    (mutation : Mutation) :
    Defers size unused (buffered.accept mutation) (direct.accept mutation) where
  config := by rw [config_accept, defers.config]
  short := by
    have short := length_buffer_accept defers.manual mutation
    rwa [defers.config] at short
  settled := by
    have made : direct.accept mutation = direct.apply mutation := by
      simp only [MemoryStore.accept, defers.unbuffered.auto, if_true]
    rw [flushBuffer_accept defers.manual, made, defers.settled]
    exact apply_withConfig ..
  closed := by
    intro closed
    rw [closed_accept, opened] at closed
    cases closed

theorem flush (defers : Defers size unused buffered direct) :
    Defers size unused buffered.flushBuffer direct.flushBuffer where
  config := by rw [config_flushBuffer, defers.config]
  short := by
    rw [buffer_flushBuffer, List.length_nil]
    omega
  settled := by
    rw [flushBuffer_of_empty (buffer_flushBuffer buffered),
      flushBuffer_of_empty defers.unbuffered.empty]
    exact defers.settled
  closed := fun _ => buffer_flushBuffer buffered

theorem close (defers : Defers size unused buffered direct) :
    Defers size unused { buffered.flushBuffer with closed := true }
      { direct.flushBuffer with closed := true } where
  config := defers.flush.config
  short := defers.flush.short
  settled := by
    have empty := buffer_flushBuffer buffered
    have flushed : { buffered.flushBuffer with closed := true }.flushBuffer =
        { buffered.flushBuffer with closed := true } := flushBuffer_of_empty empty
    rw [flushed, defers.flush.settled, flushBuffer_of_empty empty]
    rfl
  closed := fun _ => buffer_flushBuffer buffered

/-- Both stores answer a call alike, and then one still puts off what the other has done. -/
theorem perform (defers : Defers size unused buffered direct) (made : WriteCall) :
    (buffered.perform made.call).1 = (direct.perform made.call).1 ∧
      Defers size unused (buffered.perform made.call).2 (direct.perform made.call).2 := by
  have same := defers.closed_eq
  cases closed : buffered.closed with
  | true =>
    rw [closed] at same
    rw [perform_of_closed closed, perform_of_closed same]
    refine ⟨?_, defers⟩
    cases made with
    | write mutation =>
      simp only [WriteCall.call, perform_mutation_of_closed closed,
        perform_mutation_of_closed same]
    | flush => simp [WriteCall.call, MemoryStore.perform, closed, same]
    | close => simp [WriteCall.call, MemoryStore.perform, closed, same]
  | false =>
    rw [closed] at same
    cases made with
    | write mutation =>
      cases mutation with
      | put write =>
        simp only [WriteCall.call, Mutation.call, MemoryStore.perform, closed, same, performOpen]
        by_cases empty : write.isEmpty
        · simpa [empty] using defers
        · simpa [empty] using defers.accept closed (.put write)
      | delete removal =>
        simp only [WriteCall.call, Mutation.call, perform_delete_of_open closed,
          perform_delete_of_open same]
        exact ⟨trivial, defers.accept closed _⟩
    | flush =>
      simp only [WriteCall.call, perform_flush_of_open closed, perform_flush_of_open same]
      exact ⟨trivial, defers.flush⟩
    | close =>
      simp only [WriteCall.call, perform_close_of_open closed, perform_close_of_open same]
      exact ⟨trivial, defers.close⟩

theorem run (defers : Defers size unused buffered direct) (calls : List WriteCall) :
    Defers size unused (buffered.runWrites calls) (direct.runWrites calls) := by
  induction calls generalizing buffered direct with
  | nil => exact defers
  | cons made rest ih => exact ih (defers.perform made).2

theorem buffer_of_settles (defers : Defers size unused buffered direct) {made : WriteCall}
    (settles : made.settles) : (buffered.perform made.call).2.buffer = [] := by
  cases closed : buffered.closed with
  | true =>
    rw [perform_of_closed closed]
    exact defers.closed closed
  | false =>
    cases made with
    | write mutation => cases settles
    | flush =>
      simp only [WriteCall.call, perform_flush_of_open closed, buffer_flushBuffer]
    | close =>
      simp only [WriteCall.call, perform_close_of_open closed, buffer_flushBuffer]

end Defers

namespace MemoryStore

/-- After any writes, flushes and closes, a store that buffers answers the next call like the one
that flushes by itself. After a flush or a close nothing waits in it and but for the configuration
the two are the same store, with the same rows and the same clock; and after a write fewer mutations
wait than fill the buffer. -/
theorem buffer_only_defers {store : MemoryStore} (empty : store.buffer = []) (size unused : Nat)
    (calls : List WriteCall) :
    let buffered := (store.withConfig ⟨false, size⟩).runWrites calls
    let direct := (store.withConfig ⟨true, unused⟩).runWrites calls
    (∀ made : WriteCall, (buffered.perform made.call).1 = (direct.perform made.call).1) ∧
    (∀ made : WriteCall, made.settles → (buffered.perform made.call).2.buffer = [] ∧
      (direct.perform made.call).2 =
        (buffered.perform made.call).2.withConfig ⟨true, unused⟩) ∧
    ∀ mutation : Mutation, (buffered.perform mutation.call).2.buffer.length < max 1 size := by
  intro buffered direct
  have defers : Defers size unused buffered direct := (Defers.of_config empty size unused).run calls
  refine ⟨fun made => (defers.perform made).1, fun made settles => ?_, fun mutation => ?_⟩
  · have settled := defers.buffer_of_settles settles
    have later := (defers.perform made).2.settled
    rw [flushBuffer_of_empty settled] at later
    exact ⟨settled, later⟩
  · exact (defers.perform (.write mutation)).2.short

/-- A put waits alone in a buffer for two after an earlier put and a delete have filled it. It leaves
its version to the store, and the flush gives it the one that it got where nothing waits. -/
theorem buffer_only_defers_third_write :
    let put (value : UInt8) : WriteCall :=
      .write (.put (({ row := Bytes.ofText "r" } : Put).add Sample.column [value]))
    let calls := [put 1, .write (.delete { row := Bytes.ofText "r" }), put 2]
    let buffered := (({} : MemoryStore).withConfig ⟨false, 2⟩).runWrites calls
    let direct := (({} : MemoryStore).withConfig ⟨true, 2⟩).runWrites calls
    buffered.buffer.length = 1 ∧ buffered.rows ≠ direct.rows ∧ buffered.clock ≠ direct.clock ∧
      (buffered.perform .flush).2.cell? (Bytes.ofText "r") Sample.column ⟨2⟩ = some [2] ∧
        (direct.perform .flush).2.rows = (buffered.perform .flush).2.rows ∧
          (direct.perform .flush).2.clock = (buffered.perform .flush).2.clock := by
  intro put calls buffered direct
  have empty : ({} : MemoryStore).buffer = [] := rfl
  obtain ⟨_, settled, _⟩ := buffer_only_defers empty 2 2 calls
  have flushed : (direct.perform .flush).2 =
      (buffered.perform .flush).2.withConfig ⟨true, 2⟩ := (settled .flush rfl).2
  refine ⟨by decide +kernel, by decide +kernel, by decide +kernel, by decide +kernel, ?_, ?_⟩
  · rw [flushed]
    rfl
  · rw [flushed]
    rfl

end MemoryStore

end SnapshotTable
