import SnapshotTable.Proofs.Layer

/-!
What a call does to the cells and the clock of a memory store, as a list of effects. A mutation that
only joins the buffer has its effect when the buffer is flushed, so one call may have several
effects and another one none. A run of calls is a chain of moments: each begins with the cells and
the clock that the one before it has left.
-/

namespace SnapshotTable

set_option autoImplicit false

/-- One change of the cells. An update takes a version from the clock for values derived from the
newest ones; if they cannot be derived, the version is taken and nothing is written. -/
inductive Effect where
  | make (mutation : Mutation)
  | update (row : Bytes) (values : Option (List (Column × Bytes)))
deriving DecidableEq

/-- The put that writes derived values to a row, all at one version. -/
def Put.atVersion (row : Bytes) (version : Version) (values : List (Column × Bytes)) : Put where
  row := row
  timestamp := version
  cells := values.map fun (column, value) => ⟨column, version, value⟩

namespace Effect

def row : Effect → Bytes
  | make mutation => mutation.row
  | update row _ => row

def run (store : MemoryStore) : Effect → MemoryStore
  | make mutation => store.apply mutation
  | update _ none => store.tick.2
  | update row (some values) => store.tick.2.applyPut (.atVersion row store.tick.1 values)

end Effect

namespace MemoryStore

structure Alike (store other : MemoryStore) : Prop where
  rows : store.rows = other.rows
  clock : store.clock = other.clock

namespace Alike

variable {store other third : MemoryStore}

theorem refl (store : MemoryStore) : store.Alike store := ⟨rfl, rfl⟩

theorem symm (alike : store.Alike other) : other.Alike store :=
  ⟨alike.rows.symm, alike.clock.symm⟩

theorem trans (alike : store.Alike other) (alike' : other.Alike third) : store.Alike third :=
  ⟨alike.rows.trans alike'.rows, alike.clock.trans alike'.clock⟩

theorem contents (alike : store.Alike other) : store.contents = other.contents := by
  funext place
  simp only [MemoryStore.contents, cell?, alike.rows]

theorem tick (alike : store.Alike other) :
    store.tick.1 = other.tick.1 ∧ store.tick.2.Alike other.tick.2 := by
  simp only [MemoryStore.tick, alike.clock, true_and]
  exact ⟨alike.rows, rfl⟩

theorem insertCell (alike : store.Alike other) (row : Bytes) (column : Column) (version : Version)
    (value : Bytes) : (store.insertCell row column version value).Alike
      (other.insertCell row column version value) where
  rows := by simp only [MemoryStore.insertCell, alike.rows]
  clock := alike.clock

theorem resolve (alike : store.Alike other) (version : Version) (assigned : Option Version) :
    (store.resolve version assigned).1 = (other.resolve version assigned).1 ∧
      (store.resolve version assigned).2.1 = (other.resolve version assigned).2.1 ∧
        (store.resolve version assigned).2.2.Alike (other.resolve version assigned).2.2 := by
  simp only [MemoryStore.resolve]
  split
  · cases assigned with
    | some given => exact ⟨rfl, rfl, alike⟩
    | none =>
      obtain ⟨given, ticked⟩ := alike.tick
      exact ⟨given, congrArg some given, ticked⟩
  · refine ⟨rfl, rfl, alike.rows, ?_⟩
    simp only [passVersion, alike.clock]

theorem writeCells (alike : store.Alike other) (row : Bytes) (cells : List Cell)
    (assigned : Option Version) : (MemoryStore.writeCells row cells assigned store).Alike
      (MemoryStore.writeCells row cells assigned other) := by
  induction cells generalizing store other assigned with
  | nil => exact alike
  | cons cell rest ih =>
    obtain ⟨version, given, resolved⟩ := alike.resolve cell.version assigned
    simp only [MemoryStore.writeCells, version, given]
    exact ih (resolved.insertCell ..) _

theorem applyPut (alike : store.Alike other) (write : Put) :
    (store.applyPut write).Alike (other.applyPut write) := by
  have opened : MemoryStore.Alike
      { store with rows := store.rows.alter write.row fun columns => some (columns.getD .empty) }
      { other with rows := other.rows.alter write.row fun columns => some (columns.getD .empty) } :=
    ⟨by simp only [alike.rows], alike.clock⟩
  exact opened.writeCells write.row write.cells none

theorem run (alike : store.Alike other) (effect : Effect) :
    (effect.run store).Alike (effect.run other) := by
  cases effect with
  | make mutation =>
    cases mutation with
    | put write => exact alike.applyPut write
    | delete removal =>
      exact ⟨by simp only [Effect.run, apply, applyDelete, alike.rows], alike.clock⟩
  | update row values =>
    obtain ⟨version, ticked⟩ := alike.tick
    cases values with
    | none => exact ticked
    | some values =>
      simp only [Effect.run, version]
      exact ticked.applyPut _

theorem foldl_run (alike : store.Alike other) (effects : List Effect) :
    (effects.foldl Effect.run store).Alike (effects.foldl Effect.run other) := by
  induction effects generalizing store other with
  | nil => exact alike
  | cons effect rest ih => exact ih (alike.run effect)

end Alike

/-- What taking in a mutation does at once: nothing, while the mutation only joins the buffer. -/
def intake (store : MemoryStore) (mutation : Mutation) : List Effect :=
  if store.config.autoFlush then [.make mutation]
  else if store.config.writeBufferSize ≤ store.buffer.length + 1 then
    (store.buffer ++ [mutation]).map .make
  else []

def checked (store : MemoryStore) (condition : Condition) (mutation : Mutation) : List Effect :=
  if store.newest? condition.row condition.column = condition.expected then [.make mutation] else []

def derived {α : Type} (store : MemoryStore) (row : Bytes) (columns : List (Column × α))
    (derive : Option Bytes → α → Except StoreError Bytes) :
    Except StoreError (List (Column × Bytes)) :=
  columns.mapM fun (column, change) => do
    return (column, ← derive (store.newest? row column) change)

def effects (store : MemoryStore) (call : StoreCall) : List Effect :=
  if store.closed then []
  else
    match call with
    | .get _ | .scan _ => []
    | .put request => if request.isEmpty then [] else store.intake (.put request)
    | .delete request => store.intake (.delete request)
    | .checkAndPut condition request =>
      if condition.row ≠ request.row ∨ request.isEmpty then []
      else store.checked condition (.put request)
    | .checkAndDelete condition request =>
      if condition.row ≠ request.row then [] else store.checked condition (.delete request)
    | .append request =>
      [.update request.row (store.derived request.row request.columns appended).toOption]
    | .increment request =>
      [.update request.row (store.derived request.row request.columns incremented).toOption]
    | .flush | .close => store.buffer.map .make

theorem mem_intake {store : MemoryStore} {mutation : Mutation} {effect : Effect}
    (mem : effect ∈ store.intake mutation) :
    ∃ made, effect = .make made ∧ (made ∈ store.buffer ∨ made = mutation) := by
  rw [intake] at mem
  split at mem
  · exact ⟨mutation, List.mem_singleton.1 mem, .inr rfl⟩
  · split at mem
    · obtain ⟨made, listed, rfl⟩ := List.mem_map.1 mem
      exact ⟨made, rfl, (List.mem_append.1 listed).imp_right List.mem_singleton.1⟩
    · cases mem

theorem mem_checked {store : MemoryStore} {condition : Condition} {mutation : Mutation}
    {effect : Effect} (mem : effect ∈ store.checked condition mutation) :
    effect = .make mutation := by
  rw [checked] at mem
  split at mem
  · exact List.mem_singleton.1 mem
  · cases mem

theorem hasCells_of_not_isEmpty {request : Put} (full : ¬request.isEmpty) :
    (Mutation.put request).HasCells := by
  simpa [Put.isEmpty, Mutation.HasCells] using full

/-- All that calls do: an open store makes mutations that have waited, or that it does not refuse,
and an append or an increment is an update. -/
theorem effects_cases {store : MemoryStore} {call : StoreCall} {effect : Effect}
    (mem : effect ∈ store.effects call) : store.closed = false ∧
      ((∃ made, effect = .make made ∧ (made ∈ store.buffer ∨ made.HasCells)) ∨
        (∃ request, call = .append request ∧ effect = .update request.row
          (store.derived request.row request.columns appended).toOption) ∨
        ∃ request, call = .increment request ∧ effect = .update request.row
          (store.derived request.row request.columns incremented).toOption) := by
  have taken : ∀ {mutation : Mutation}, mutation.HasCells → effect ∈ store.intake mutation →
      ∃ made, effect = .make made ∧ (made ∈ store.buffer ∨ made.HasCells) := by
    intro mutation full mem
    obtain ⟨made, same, waited | rfl⟩ := mem_intake mem
    · exact ⟨made, same, .inl waited⟩
    · exact ⟨made, same, .inr full⟩
  have flushed : effect ∈ store.buffer.map .make →
      ∃ made, effect = .make made ∧ (made ∈ store.buffer ∨ made.HasCells) := by
    intro mem
    obtain ⟨made, waited, rfl⟩ := List.mem_map.1 mem
    exact ⟨made, rfl, .inl waited⟩
  cases closed : store.closed with
  | true => simp [effects, closed] at mem
  | false =>
    refine ⟨rfl, ?_⟩
    simp only [effects, closed, Bool.false_eq_true, if_false] at mem
    cases call with
    | get request => cases mem
    | scan request => cases mem
    | put request =>
      dsimp only at mem
      split at mem
      · cases mem
      · rename_i full
        exact .inl (taken (hasCells_of_not_isEmpty full) mem)
    | delete request =>
      have full : (Mutation.delete request).HasCells := trivial
      exact .inl (taken full mem)
    | checkAndPut condition request =>
      dsimp only at mem
      split at mem
      · cases mem
      · rename_i passed
        have full := hasCells_of_not_isEmpty (not_or.1 passed).2
        exact .inl ⟨_, mem_checked mem, .inr full⟩
    | checkAndDelete condition request =>
      dsimp only at mem
      split at mem
      · cases mem
      · exact .inl ⟨_, mem_checked mem, .inr trivial⟩
    | append request => exact .inr (.inl ⟨request, rfl, List.mem_singleton.1 mem⟩)
    | increment request => exact .inr (.inr ⟨request, rfl, List.mem_singleton.1 mem⟩)
    | flush => exact .inl (flushed mem)
    | close => exact .inl (flushed mem)

theorem foldl_make (store : MemoryStore) (mutations : List Mutation) :
    (mutations.map .make).foldl Effect.run store = mutations.foldl apply store :=
  List.foldl_map

theorem applyIf_eq (store : MemoryStore) (condition : Condition) (mutation : Mutation) :
    (store.applyIf condition mutation).2 =
      (store.checked condition mutation).foldl Effect.run store := by
  rw [applyIf, checked]
  split <;> rfl

theorem flushBuffer_alike (store : MemoryStore) :
    store.flushBuffer.Alike ((store.buffer.map .make).foldl Effect.run store) := by
  have emptied : MemoryStore.Alike { store with buffer := [] } store := ⟨rfl, rfl⟩
  have flushed := emptied.foldl_run (store.buffer.map .make)
  rwa [foldl_make] at flushed

theorem accept_alike (store : MemoryStore) (mutation : Mutation) :
    (store.accept mutation).Alike ((store.intake mutation).foldl Effect.run store) := by
  have queued : MemoryStore.Alike { store with buffer := store.buffer ++ [mutation] } store :=
    ⟨rfl, rfl⟩
  cases auto : store.config.autoFlush with
  | true =>
    simp only [accept, intake, auto, if_true]
    exact .refl _
  | false =>
    simp only [accept, intake, auto, Bool.false_eq_true, if_false, List.length_append,
      List.length_singleton]
    split
    · exact (flushBuffer_alike _).trans (queued.foldl_run _)
    · exact queued

theorem derived_cons {α : Type} (store : MemoryStore) (row : Bytes) (column : Column) (change : α)
    (rest : List (Column × α)) (derive : Option Bytes → α → Except StoreError Bytes) :
    store.derived row ((column, change) :: rest) derive = do
      let value ← derive (store.newest? row column) change
      let values ← store.derived row rest derive
      return (column, value) :: values := by
  rw [derived, List.mapM_cons, bind_assoc]
  rfl

theorem mapM_cells {α : Type} (store : MemoryStore) (version : Version) (row : Bytes)
    (columns : List (Column × α)) (derive : Option Bytes → α → Except StoreError Bytes) :
    (columns.mapM fun (column, change) => do
        return (⟨column, version, ← derive (store.newest? row column) change⟩ : Cell)) =
      (store.derived row columns derive).map fun values =>
        (Put.atVersion row version values).cells := by
  induction columns with
  | nil => rfl
  | cons entry rest ih =>
    obtain ⟨column, change⟩ := entry
    rw [List.mapM_cons, derived_cons, ih]
    dsimp only
    cases derive (store.newest? row column) change with
    | error error => rfl
    | ok value => cases store.derived row rest derive <;> rfl

section Updates

variable {α : Type} {store : MemoryStore} {row : Bytes} {columns : List (Column × α)}
  {derive : Option Bytes → α → Except StoreError Bytes}

theorem updateColumns_of_error {error : StoreError}
    (failed : store.derived row columns derive = .error error) :
    store.updateColumns row columns derive = (.error error, store.tick.2) := by
  have cells := mapM_cells store.tick.2 store.tick.1 row columns derive
  have same : store.tick.2.derived row columns derive = .error error := failed
  rw [same] at cells
  simp only [updateColumns, cells, Except.map]

theorem updateColumns_of_ok {values : List (Column × Bytes)}
    (made : store.derived row columns derive = .ok values) :
    store.updateColumns row columns derive =
      (.ok (.ofCells row (Put.atVersion row store.tick.1 values).cells),
        store.tick.2.applyPut (.atVersion row store.tick.1 values)) := by
  have cells := mapM_cells store.tick.2 store.tick.1 row columns derive
  have same : store.tick.2.derived row columns derive = .ok values := made
  rw [same] at cells
  simp only [updateColumns, cells, Except.map]
  rfl

end Updates

theorem updateColumns_eq {α : Type} (store : MemoryStore) (row : Bytes)
    (columns : List (Column × α)) (derive : Option Bytes → α → Except StoreError Bytes) :
    (store.updateColumns row columns derive).2 =
      Effect.run store (.update row (store.derived row columns derive).toOption) := by
  cases made : store.derived row columns derive with
  | error error =>
    rw [updateColumns_of_error made]
    rfl
  | ok values =>
    rw [updateColumns_of_ok made]
    rfl

/-- A call does to the cells and the clock what its effects do, one after the other. -/
theorem perform_alike (store : MemoryStore) (call : StoreCall) :
    (store.perform call).2.Alike ((store.effects call).foldl Effect.run store) := by
  cases closed : store.closed with
  | true =>
    rw [perform_of_closed closed]
    simp only [effects, closed, if_true]
    exact .refl store
  | false =>
    simp only [perform, effects, closed, Bool.false_eq_true, if_false]
    cases call with
    | get request => exact .refl store
    | scan request => exact .refl store
    | put request =>
      simp only [performOpen]
      split
      · exact .refl store
      · exact store.accept_alike _
    | delete request => exact store.accept_alike _
    | checkAndPut condition request =>
      simp only [performOpen]
      by_cases other : condition.row ≠ request.row
      · simp only [if_pos other, if_pos (Or.inl other)]
        exact .refl store
      · by_cases empty : request.isEmpty
        · simp only [if_neg other, if_pos empty, if_pos (Or.inr empty)]
          exact .refl store
        · rw [if_neg other, if_neg empty, if_neg (not_or.2 ⟨other, empty⟩)]
          exact store.applyIf_eq condition (.put request) ▸ .refl _
    | checkAndDelete condition request =>
      simp only [performOpen]
      split
      · exact .refl store
      · exact store.applyIf_eq condition (.delete request) ▸ .refl _
    | append request => exact store.updateColumns_eq .. ▸ .refl _
    | increment request => exact store.updateColumns_eq .. ▸ .refl _
    | flush => exact store.flushBuffer_alike
    | close =>
      have closing : MemoryStore.Alike { store.flushBuffer with closed := true }
          store.flushBuffer := ⟨rfl, rfl⟩
      exact closing.trans store.flushBuffer_alike

end MemoryStore

theorem Effect.run_frame (effect : Effect) (store : MemoryStore) : ∃ rows clock,
    effect.run store = { store with rows := rows, clock := clock } := by
  cases effect with
  | make mutation => exact store.apply_frame mutation
  | update row values =>
    cases values with
    | none => exact ⟨_, _, rfl⟩
    | some values =>
      obtain ⟨rows, clock, same⟩ :=
        store.tick.2.apply_frame (.put (.atVersion row store.tick.1 values))
      exact ⟨rows, clock, same⟩

/-- An effect and the store that it meets. -/
structure Moment where
  store : MemoryStore
  effect : Effect
deriving DecidableEq

def Moment.after (moment : Moment) : MemoryStore := moment.effect.run moment.store

namespace MemoryStore

def moments (store : MemoryStore) : List Effect → List Moment
  | [] => []
  | effect :: rest => ⟨store, effect⟩ :: (effect.run store).moments rest

def performAll (store : MemoryStore) (calls : List StoreCall) : MemoryStore :=
  calls.foldl (fun store call => (store.perform call).2) store

/-- The effects of a run of calls, each with the store that it meets. -/
def history (store : MemoryStore) : List StoreCall → List Moment
  | [] => []
  | call :: rest => store.moments (store.effects call) ++ (store.perform call).2.history rest

theorem effect_of_mem_moments {store : MemoryStore} {effects : List Effect} :
    ∀ moment ∈ store.moments effects, moment.effect ∈ effects := by
  induction effects generalizing store with
  | nil => simp [moments]
  | cons effect rest ih =>
    refine List.forall_mem_cons.2 ⟨List.mem_cons_self .., fun moment mem => ?_⟩
    exact List.mem_cons_of_mem _ (ih moment mem)

end MemoryStore

open MemoryStore

/-- Each of the moments begins with the cells and the clock that the one before it has left. -/
inductive Leads : MemoryStore → List Moment → MemoryStore → Prop
  | nil {start last : MemoryStore} : start.Alike last → Leads start [] last
  | cons {start last : MemoryStore} {moment : Moment} {rest : List Moment} :
    start.Alike moment.store → Leads moment.after rest last → Leads start (moment :: rest) last

namespace Leads

variable {start middle last : MemoryStore} {moments more : List Moment}

theorem of_alike (alike : start.Alike middle) (leads : Leads middle moments last) :
    Leads start moments last := by
  cases leads with
  | nil alike' => exact .nil (alike.trans alike')
  | cons alike' rest => exact .cons (alike.trans alike') rest

theorem append (first : Leads start moments middle) (second : Leads middle more last) :
    Leads start (moments ++ more) last := by
  induction first with
  | nil alike => exact second.of_alike alike
  | cons alike _ ih => exact .cons alike (ih second)

theorem before {earlier later : List Moment} {moment : Moment}
    (leads : Leads start (earlier ++ moment :: later) last) : Leads start earlier moment.store := by
  induction earlier generalizing start with
  | nil =>
    cases leads with
    | cons alike _ => exact .nil alike
  | cons first rest ih =>
    cases leads with
    | cons alike later => exact .cons alike (ih later)

theorem after {earlier later : List Moment} {moment : Moment}
    (leads : Leads start (earlier ++ moment :: later) last) : Leads moment.after later last := by
  induction earlier generalizing start with
  | nil =>
    cases leads with
    | cons _ later => exact later
  | cons first rest ih =>
    cases leads with
    | cons _ later => exact ih later

theorem of_moments (store : MemoryStore) (effects : List Effect) :
    Leads store (store.moments effects) (effects.foldl Effect.run store) := by
  induction effects generalizing store with
  | nil => exact .nil (.refl store)
  | cons effect rest ih => exact .cons (.refl store) (ih (effect.run store))

theorem of_history (store : MemoryStore) (calls : List StoreCall) :
    Leads store (store.history calls) (store.performAll calls) := by
  induction calls generalizing store with
  | nil => exact .nil (.refl store)
  | cons call rest ih =>
    exact (of_moments store _).append ((ih _).of_alike (store.perform_alike call).symm)

/-- What an effect keeps, and what hangs on cells and clock alone, holds after all moments. -/
theorem induct (Holds : List Moment → MemoryStore → Prop) {allowed : Moment → Prop}
    (alike : ∀ {past store other}, MemoryStore.Alike store other → Holds past store →
      Holds past other)
    (step : ∀ {past moment}, allowed moment → Holds past moment.store →
      Holds (past ++ [moment]) moment.after)
    {past : List Moment} (leads : Leads start moments last)
    (all : ∀ moment ∈ moments, allowed moment) (holds : Holds past start) :
    Holds (past ++ moments) last := by
  induction leads generalizing past with
  | nil same =>
    rw [List.append_nil]
    exact alike same holds
  | @cons start last moment rest same _ ih =>
    obtain ⟨here, later⟩ := List.forall_mem_cons.1 all
    have next := ih later (step here (alike same holds))
    rwa [List.append_assoc] at next

end Leads

end SnapshotTable
