import SnapshotTable.Proofs.Batch
import SnapshotTable.Proofs.Reading
import SnapshotTable.Proofs.Update

/-!
Calls to which a memory store answers with an error. Which they are is known beforehand, and none of
them touches a cell or a mutation that waits; a failing increment has only made the clock tick. An
increment that succeeds stores exact sums and nothing else.
-/

namespace SnapshotTable

set_option autoImplicit false

namespace MemoryStore

variable {store : MemoryStore}

theorem contents_updated_some {row : Bytes} {values : List (Column × Bytes)} {place : Place}
    {value : Bytes} (found : (store.updated row values).contents place = some value) :
    store.contents place = some value ∨
      place.row = row ∧ (place.column, value) ∈ values := by
  rw [updated, contents_applyPut, cellsAt_update] at found
  rcases FlatStore.find?_write_some found with stood | ⟨here, mem⟩
  · rw [find?_flat] at stood
    exact .inl stood
  · obtain ⟨⟨column, derived⟩, listed, same⟩ := List.mem_map.1 mem
    obtain ⟨rfl, _, rfl⟩ := Cell.mk.inj same
    exact .inr ⟨here, listed⟩

theorem updateColumns_outcome {α : Type} (store : MemoryStore) (row : Bytes)
    (columns : List (Column × α)) (derive : Option Bytes → α → Except StoreError Bytes) :
    ((store.updateColumns row columns derive).1.isOk ↔
        ∀ entry ∈ columns, (derive (store.shown row entry.1) entry.2).isOk) ∧
      (¬(store.updateColumns row columns derive).1.isOk →
        (store.updateColumns row columns derive).2 = store.tick.2) := by
  have each : (store.derived row columns derive).isOk ↔
      ∀ entry ∈ columns, (derive (store.shown row entry.1) entry.2).isOk := by
    rw [derived, isOk_mapM_iff]
    refine forall₂_congr fun entry _ => ?_
    obtain ⟨column, change⟩ := entry
    rw [shown_eq_newest?]
    dsimp only
    cases derive (store.newest? row column) change <;> exact .rfl
  rw [← each]
  cases made : store.derived row columns derive with
  | error error =>
    rw [updateColumns_of_error made]
    exact ⟨.rfl, fun _ => rfl⟩
  | ok values =>
    rw [updateColumns_of_ok made]
    exact ⟨.rfl, fun refused => absurd rfl refused⟩

/-- The calls that a store answers with an error. -/
def Refuses (store : MemoryStore) (call : StoreCall) : Prop :=
  if store.closed then call ≠ .close
  else
    match call with
    | .put request => request.cells = []
    | .checkAndPut condition request => condition.row ≠ request.row ∨ request.cells = []
    | .checkAndDelete condition request => condition.row ≠ request.row
    | .increment request => ∃ entry ∈ request.columns,
        Counter.Refuses (store.shown request.row entry.1) entry.2
    | _ => False

/-- What a call fails for is in `Refuses`. Then the store stays as it is, but for the clock if the call
is an increment. -/
theorem perform_outcome (store : MemoryStore) (call : StoreCall) :
    ((store.perform call).1.isOk ↔ ¬store.Refuses call) ∧
      (store.Refuses call → (store.perform call).2 = store ∨
        (∃ request, call = .increment request) ∧ (store.perform call).2 = store.tick.2) := by
  cases closed : store.closed with
  | true => cases call <;> simp [perform, Refuses, closed, Except.isOk, Except.toBool]
  | false =>
    simp only [perform, Refuses, closed, Bool.false_eq_true, if_false]
    cases call with
    | get | scan | delete | flush | close => exact ⟨iff_of_true rfl id, False.elim⟩
    | put request =>
      by_cases empty : request.cells = [] <;>
        simp [performOpen, Put.isEmpty, empty, Except.isOk, Except.toBool]
    | checkAndPut condition request =>
      by_cases other : condition.row = request.row <;> by_cases empty : request.cells = [] <;>
        simp [performOpen, Put.isEmpty, other, empty, Except.isOk, Except.toBool]
    | checkAndDelete condition request =>
      by_cases other : condition.row = request.row <;>
        simp [performOpen, other, Except.isOk, Except.toBool]
    | append request =>
      have outcome := (store.updateColumns_outcome request.row request.columns appended).1
      exact ⟨iff_of_true (outcome.2 fun _ _ => rfl) id, False.elim⟩
    | increment request =>
      obtain ⟨accepted, ticked⟩ :=
        store.updateColumns_outcome request.row request.columns incremented
      have refuses : (store.performOpen (.increment request)).1.isOk ↔
          ¬∃ entry ∈ request.columns,
            Counter.Refuses (store.shown request.row entry.1) entry.2 := by
        refine accepted.trans ?_
        simp only [isOk_incremented_iff, not_exists, not_and]
      exact ⟨refuses, fun refused =>
        .inr ⟨⟨request, rfl⟩, ticked fun done => refuses.1 done refused⟩⟩

theorem contents_of_increment {store next : MemoryStore} {request : Increment} {reply : RowResult}
    (done : store.perform (.increment request) = (.ok reply, next)) {place : Place} {value : Bytes}
    (found : next.contents place = some value) : store.contents place = some value ∨
      place.row = request.row ∧ ∃ amount count sum : Int64,
        (place.column, amount) ∈ request.columns ∧
          Counter.standing (store.shown request.row place.column) = .ok count ∧
            sum.toInt = count.toInt + amount.toInt ∧ value = Counter.encode sum := by
  have made : (if store.closed then (.error .closed, store)
      else store.updateColumns request.row request.columns incremented) = (.ok reply, next) := done
  split at made
  · cases made
  obtain ⟨values, derived, _, rfl⟩ := updateColumns_ok made
  rcases contents_updated_some found with stood | ⟨here, mem⟩
  · exact .inl stood
  · obtain ⟨⟨column, amount⟩, listed, same⟩ := mem_of_mapM_ok derived _ mem
    dsimp only at same
    cases sums : incremented (store.newest? request.row column) amount with
    | error error =>
      rw [sums] at same
      cases same
    | ok stored =>
      rw [sums] at same
      obtain ⟨rfl, rfl⟩ := Prod.mk.inj (Except.ok.inj same)
      obtain ⟨count, sum, counted, exact_sum, rfl⟩ := incremented_eq_ok_iff.1 sums
      rw [← shown_eq_newest?] at counted
      exact .inr ⟨here, amount, count, sum, listed, counted, exact_sum, rfl⟩

/-- A store, open or closed and whatever waits in it, answers a call with an error exactly if it is
known to refuse it, and then its cells and its buffer are what they were; no part of it but the clock
changes, and that only in an increment. An increment that succeeds stores no number but the exact
sum of what a counter showed and of an amount that was listed for it. -/
theorem failed_calls_change_no_data (store : MemoryStore) :
    (∀ call : StoreCall, ((store.perform call).1.isOk = false ↔ store.Refuses call) ∧
      (store.Refuses call → (store.perform call).2.rows = store.rows ∧
        (store.perform call).2.buffer = store.buffer ∧
          (store.perform call).2.closed = store.closed ∧
            ((∀ request, call ≠ .increment request) → (store.perform call).2 = store))) ∧
    ∀ (request : Increment) (reply : RowResult) (next : MemoryStore),
      store.perform (.increment request) = (.ok reply, next) → ∀ place value,
        next.contents place = some value → store.contents place = some value ∨
          place.row = request.row ∧ ∃ amount count sum : Int64,
            (place.column, amount) ∈ request.columns ∧
              Counter.standing (store.shown request.row place.column) = .ok count ∧
                sum.toInt = count.toInt + amount.toInt ∧ value = Counter.encode sum := by
  refine ⟨fun call => ?_, fun request reply next done place value found => ?_⟩
  · obtain ⟨accepted, kept⟩ := store.perform_outcome call
    refine ⟨?_, fun refused => ?_⟩
    · rw [Bool.eq_false_iff, Ne, accepted, Classical.not_not]
    · rcases kept refused with same | ⟨⟨request, rfl⟩, same⟩
      · rw [same]
        exact ⟨rfl, rfl, rfl, fun _ => rfl⟩
      · rw [same]
        exact ⟨rfl, rfl, rfl, fun other => absurd rfl (other request)⟩
  · exact contents_of_increment done found

/-- A put waits in the buffer. An increment whose second column would pass the greatest number is
refused with it, and the same increment of the first column alone stores seven for five and two. -/
theorem failed_calls_change_no_data_past_overflow :
    let row := Bytes.ofText "r"
    let other := Sample.columnOf "d"
    let store := ({ config := ⟨false, 2⟩ } : MemoryStore).performAll
      [.put { row := row, cells := [⟨Sample.column, .latest, Counter.encode 5⟩,
          ⟨other, .latest, Counter.encode Int64.maxValue⟩] }, .flush,
        .put { row := row, cells := [⟨Sample.column, .latest, [1]⟩] }]
    let both : Increment := { row := row, columns := [(Sample.column, 2), (other, 1)] }
    let first : Increment := { row := row, columns := [(Sample.column, 2)] }
    (store.perform (.increment both)).1.isOk = false ∧
      (store.perform (.increment both)).2.rows = store.rows ∧
      (store.perform (.increment both)).2.buffer = store.buffer ∧ store.buffer.length = 1 ∧
      (store.perform (.increment first)).1.isOk ∧ ∃ amount count sum : Int64,
        (Sample.column, amount) ∈ first.columns ∧
          Counter.standing (store.shown row Sample.column) = .ok count ∧
            sum.toInt = count.toInt + amount.toInt ∧ Counter.encode 7 = Counter.encode sum := by
  intro row other store both first
  obtain ⟨outcomes, increments⟩ := failed_calls_change_no_data store
  have failed : (store.perform (.increment both)).1.isOk = false := by decide +kernel
  obtain ⟨refused, kept⟩ := outcomes (.increment both)
  obtain ⟨rows, buffer, _⟩ := kept (refused.1 failed)
  have ok : (store.perform (.increment first)).1.isOk := by decide +kernel
  have found : (store.perform (.increment first)).2.contents ⟨row, Sample.column, ⟨2⟩⟩ =
      some (Counter.encode 7) := by decide +kernel
  have fresh : store.contents ⟨row, Sample.column, ⟨2⟩⟩ = none := by decide +kernel
  refine ⟨failed, rows, buffer, by decide +kernel, ok, ?_⟩
  obtain ⟨reply, next, done⟩ := exists_ok_of_isOk ok
  rw [done] at found
  rcases increments first reply next done _ _ found with stood | ⟨_, exact_sum⟩
  · rw [fresh] at stood
    cases stood
  · exact exact_sum

end MemoryStore

end SnapshotTable
