import Mathlib.Data.List.DropRight
import SnapshotTable.Proofs.Run

/-!
Fault layers over stores of any kind. Which calls fail is decided by what has happened at the layer:
how many writes have arrived, which of their numbers were armed, and how each switch was last set.
The other calls are answered by the store inside, which is left as if only they had been made, and
the layer lists all calls since the list was last cleared.
-/

namespace SnapshotTable

set_option autoImplicit false

inductive FaultMove where
  | call (call : StoreCall)
  | set (setting : FaultSetting)
deriving DecidableEq

abbrev FaultHistory := List FaultMove

/-- The settings that stay as they are until they are set again. -/
inductive FaultSwitch where
  | writes
  | reads
  | flush

def FaultSwitch.value? : FaultSwitch → FaultMove → Option Bool
  | writes, .set (.failAllWrites fail) => some fail
  | reads, .set (.failReads fail) => some fail
  | flush, .set (.failFlush fail) => some fail
  | _, _ => none

namespace FaultMove

def call? : FaultMove → Option StoreCall
  | call made => some made
  | set _ => none

def run {σ : Type} [CellStore σ] (store : FaultyStore σ) : FaultMove → FaultyStore σ
  | call made => (CellStore.perform made store).2
  | set setting => setting.apply store

end FaultMove

namespace FaultHistory

def calls (history : FaultHistory) : List StoreCall := history.filterMap (·.call?)

/-- The number of the write that comes next: so many have arrived, failed ones included. -/
def writeCount (history : FaultHistory) : Nat := history.calls.countP (·.isWrite)

def arms (history : FaultHistory) (number : Nat) : Bool :=
  history.contains (.set (.failWrite number))

def isOn (history : FaultHistory) (switch : FaultSwitch) : Bool :=
  (history.filterMap switch.value?).getLast?.getD false

/-- The kind of failure that a call meets at the layer if it comes next. -/
def failure? (history : FaultHistory) : StoreCall → Option String
  | .get _ | .scan _ => if history.isOn .reads then some "read" else none
  | .put _ | .delete _ =>
    if history.isOn .writes || history.arms history.writeCount then some "write" else none
  | .flush => if history.isOn .flush then some "flush" else none
  | _ => none

/-- What a move lets through to the store inside, after some others. -/
def passes (past : FaultHistory) (move : FaultMove) : List StoreCall :=
  move.call?.toList.filter fun made => (past.failure? made).isNone

def passedAfter (past : FaultHistory) : List FaultMove → List StoreCall
  | [] => []
  | move :: rest => past.passes move ++ passedAfter (past ++ [move]) rest

def passed (history : FaultHistory) : List StoreCall := passedAfter [] history

/-- The calls since the list of calls was last cleared. -/
def listed (history : FaultHistory) : List StoreCall :=
  calls (history.rtakeWhile (· ≠ .set .clearCalls))

section Snoc

variable (history : FaultHistory)

theorem passedAfter_snoc (past more : FaultHistory) (move : FaultMove) :
    passedAfter past (more ++ [move]) = passedAfter past more ++ (past ++ more).passes move := by
  induction more generalizing past with
  | nil => simp [passedAfter]
  | cons first rest ih =>
    rw [List.cons_append, passedAfter, passedAfter, ih, List.append_assoc past, List.append_assoc]
    rfl

theorem passed_snoc (move : FaultMove) :
    passed (history ++ [move]) = history.passed ++ history.passes move :=
  passedAfter_snoc [] history move

theorem writeCount_snoc_call (made : StoreCall) :
    writeCount (history ++ [.call made]) =
      if made.isWrite then history.writeCount + 1 else history.writeCount := by
  rw [writeCount, calls, List.filterMap_append, List.countP_append]
  change history.writeCount + List.countP _ [made] = _
  rw [List.countP_singleton]
  split <;> rfl

theorem writeCount_snoc_set (setting : FaultSetting) :
    writeCount (history ++ [.set setting]) = history.writeCount := by
  rw [writeCount, calls, List.filterMap_append, List.countP_append]
  rfl

theorem arms_snoc (move : FaultMove) (number : Nat) :
    arms (history ++ [move]) number =
      (history.arms number || decide (move = .set (.failWrite number))) := by
  simp [arms, eq_comm]

theorem isOn_snoc (move : FaultMove) (switch : FaultSwitch) :
    isOn (history ++ [move]) switch = (switch.value? move).getD (history.isOn switch) := by
  rw [isOn, List.filterMap_append, List.getLast?_append]
  cases set : switch.value? move <;> simp [set, isOn]

theorem listed_snoc_call (made : StoreCall) :
    listed (history ++ [.call made]) = history.listed ++ [made] := by
  rw [listed, List.rtakeWhile_concat_pos _ _ _ (by simp), calls, List.filterMap_append]
  rfl

theorem listed_snoc_clear : listed (history ++ [.set .clearCalls]) = [] := by
  rw [listed, List.rtakeWhile_concat_neg _ _ _ (by simp)]
  rfl

theorem listed_snoc_set {setting : FaultSetting} (other : setting ≠ .clearCalls) :
    listed (history ++ [.set setting]) = history.listed := by
  rw [listed, List.rtakeWhile_concat_pos _ _ _ (by simpa using other), calls,
    List.filterMap_append]
  exact List.append_nil _

end Snoc

end FaultHistory

variable {σ : Type} [CellStore σ]

theorem CellStore.getMany_of_error {request : Get} {store next : σ} {error : StoreError}
    (failed : CellStore.get request store = (.error error, next)) (rest : List Get) :
    CellStore.getMany (request :: rest) store = (.error error, next) := by
  rw [getMany, failed]

theorem CellStore.getMany_of_ok {request : Get} {store next : σ} {result : RowResult}
    (read : CellStore.get request store = (.ok result, next)) (rest : List Get) :
    CellStore.getMany (request :: rest) store =
      ((CellStore.getMany rest next).1.map (result :: ·), (CellStore.getMany rest next).2) := by
  rw [getMany, read]
  rcases later : CellStore.getMany rest next with ⟨answer, last⟩
  dsimp only
  rw [later]
  cases answer <;> rfl

namespace FaultyStore

def after (store : FaultyStore σ) (history : FaultHistory) : FaultyStore σ :=
  history.foldl FaultMove.run store

def disarm (store : FaultyStore σ) (number : Nat) : FaultyStore σ :=
  { store with failingWrites := store.failingWrites.filter (· ≠ number) }

/-- A move at a layer that uses its numbers up. A write takes its number out when it is looked up
among those armed, which is not done while all writes fail. -/
def useUp (store : FaultyStore σ) : FaultMove → FaultyStore σ
  | .call made =>
    let next := (CellStore.perform made store).2
    if made.isWrite && !store.failAllWrites then next.disarm store.writesSeen else next
  | .set setting => setting.apply store

/-- The layer is as its history says. What is armed counts for the writes to come only, so it does
not matter whether the numbers of writes already seen are kept. -/
structure Tracks (start : σ) (history : FaultHistory) (store : FaultyStore σ) : Prop where
  inner : store.inner =
    history.passed.foldl (fun inner made => (CellStore.perform made inner).2) start
  calls : store.calls = history.listed
  seen : store.writesSeen = history.writeCount
  armed : ∀ number, store.writesSeen ≤ number →
    store.failingWrites.contains number = history.arms number
  writes : store.failAllWrites = history.isOn .writes
  reads : store.failReads = history.isOn .reads
  flush : store.failFlush = history.isOn .flush

namespace Tracks

variable {start : σ} {history : FaultHistory} {store : FaultyStore σ}

theorem fault?_eq (tracks : Tracks start history store) (made : StoreCall) :
    store.fault? made = (history.failure? made).map injected := by
  have armed := tracks.armed _ (Nat.le_refl _)
  cases made <;>
    simp only [fault?, FaultHistory.failure?, tracks.writes, tracks.reads, tracks.flush, armed] <;>
    first | rfl | (rw [tracks.seen]; split <;> rfl) | (split <;> rfl)

theorem perform (tracks : Tracks start history store) (made : StoreCall) :
    (CellStore.perform made store).1 =
        (match history.failure? made with
          | some kind => .error (injected kind)
          | none => (CellStore.perform made store.inner).1) ∧
      (CellStore.perform made store).2 = { store.record made with
        inner := (history.passes (.call made)).foldl
          (fun inner made => (CellStore.perform made inner).2) store.inner } := by
  have passes : history.passes (.call made) =
      bif (history.failure? made).isNone then [made] else [] := List.filter_singleton
  change (FaultyStore.perform made store).1 = _ ∧ (FaultyStore.perform made store).2 = _
  rw [passes, FaultyStore.perform, tracks.fault?_eq]
  cases history.failure? made with
  | some kind => exact ⟨rfl, rfl⟩
  | none => exact ⟨rfl, rfl⟩

theorem call (tracks : Tracks start history store) (made : StoreCall) :
    Tracks start (history ++ [.call made]) (FaultMove.run store (.call made)) := by
  have unswitched (switch : FaultSwitch) :
      FaultHistory.isOn (history ++ [.call made]) switch = history.isOn switch := by
    rw [FaultHistory.isOn_snoc]
    cases switch <;> rfl
  rw [FaultMove.run, (tracks.perform made).2]
  constructor
  case inner => rw [FaultHistory.passed_snoc, List.foldl_append, ← tracks.inner]
  case calls => rw [FaultHistory.listed_snoc_call, ← tracks.calls]; rfl
  case seen => rw [FaultHistory.writeCount_snoc_call, ← tracks.seen]; rfl
  case armed =>
    -- a call only raises the bound from which numbers count
    intro number unseen
    have later : store.writesSeen ≤ number := by
      have counted : (store.record made).writesSeen =
        if made.isWrite then store.writesSeen + 1 else store.writesSeen := rfl
      change (store.record made).writesSeen ≤ number at unseen
      rw [counted] at unseen
      split at unseen <;> omega
    rw [FaultHistory.arms_snoc, ← tracks.armed number later]
    simp [record]
  case writes => exact tracks.writes.trans (unswitched .writes).symm
  case reads => exact tracks.reads.trans (unswitched .reads).symm
  case flush => exact tracks.flush.trans (unswitched .flush).symm

theorem set (tracks : Tracks start history store) (setting : FaultSetting) :
    Tracks start (history ++ [.set setting]) (FaultMove.run store (.set setting)) where
  inner := by
    rw [FaultHistory.passed_snoc, FaultMove.run, setting.inner_apply, tracks.inner]
    exact congrArg _ (List.append_nil _).symm
  calls := by
    by_cases cleared : setting = .clearCalls
    · rw [cleared, history.listed_snoc_clear]
      rfl
    · rw [history.listed_snoc_set cleared, ← tracks.calls]
      cases setting <;> first | rfl | exact absurd rfl cleared
  seen := by
    rw [FaultHistory.writeCount_snoc_set, ← tracks.seen]
    cases setting <;> rfl
  armed := by
    intro number unseen
    rw [FaultHistory.arms_snoc]
    cases setting with
    | failWrite armed =>
      rw [← tracks.armed number unseen]
      simp [FaultMove.run, FaultSetting.apply, failWrite, Bool.or_comm, eq_comm]
    | _ => simpa [FaultMove.run, FaultSetting.apply, clearCalls] using tracks.armed number unseen
  writes := by
    rw [FaultHistory.isOn_snoc, ← tracks.writes]
    cases setting <;> rfl
  reads := by
    rw [FaultHistory.isOn_snoc, ← tracks.reads]
    cases setting <;> rfl
  flush := by
    rw [FaultHistory.isOn_snoc, ← tracks.flush]
    cases setting <;> rfl

theorem step (tracks : Tracks start history store) (move : FaultMove) :
    Tracks start (history ++ [move]) (move.run store) := by
  cases move with
  | call made => exact tracks.call made
  | set setting => exact tracks.set setting

theorem disarm (tracks : Tracks start history store) {number : Nat}
    (seen : number < store.writesSeen) : Tracks start history (store.disarm number) where
  inner := tracks.inner
  calls := tracks.calls
  seen := tracks.seen
  armed := by
    intro other unseen
    have different : other ≠ number := by
      change store.writesSeen ≤ other at unseen
      omega
    rw [← tracks.armed other unseen]
    simp [FaultyStore.disarm, different]
  writes := tracks.writes
  reads := tracks.reads
  flush := tracks.flush

theorem get_of_on (tracks : Tracks start history store) (on : history.isOn .reads)
    (request : Get) : CellStore.get request store =
      (.error (injected "read"), FaultMove.run store (.call (.get request))) := by
  have failing : history.failure? (.get request) = some "read" := if_pos on
  have reply := (tracks.perform (.get request)).1
  rw [failing] at reply
  exact Prod.ext reply rfl

theorem get_of_off (tracks : Tracks start history store) (off : ¬history.isOn .reads)
    (request : Get) :
    CellStore.get request store = ((CellStore.get request store.inner).1,
        FaultMove.run store (.call (.get request))) ∧
      (FaultMove.run store (.call (.get request))).inner =
        (CellStore.get request store.inner).2 := by
  have passing : history.failure? (.get request) = none := if_neg off
  obtain ⟨reply, left⟩ := tracks.perform (.get request)
  rw [passing] at reply
  refine ⟨Prod.ext reply rfl, ?_⟩
  rw [FaultMove.run, left]
  simp [FaultHistory.passes, FaultMove.call?, passing]
  rfl

theorem getMany (tracks : Tracks start history store) (requests : List Get) :
    ∃ made, made <+: requests ∧
      (CellStore.getMany requests store).2 = store.after (made.map fun made => .call (.get made)) ∧
      (CellStore.getMany requests store).1 =
        if history.isOn .reads ∧ requests ≠ [] then .error (injected "read")
        else (CellStore.getMany requests store.inner).1 := by
  induction requests generalizing history store with
  | nil => exact ⟨[], List.prefix_rfl, rfl, by simp [CellStore.getMany]⟩
  | cons request rest ih =>
    by_cases on : history.isOn .reads
    · rw [if_pos ⟨on, List.cons_ne_nil request rest⟩, CellStore.getMany_of_error (tracks.get_of_on on request)]
      exact ⟨[request], List.prefix_append [request] rest, rfl, rfl⟩
    · obtain ⟨got, inner⟩ := tracks.get_of_off on request
      have off : ¬FaultHistory.isOn (history ++ [.call (.get request)]) .reads := by
        rwa [FaultHistory.isOn_snoc]
      rw [if_neg fun both => on both.1]
      rcases read : CellStore.get request store.inner with ⟨answer, next⟩
      rw [read] at got inner
      cases answer with
      | error error =>
        rw [CellStore.getMany_of_error got, CellStore.getMany_of_error read]
        exact ⟨[request], List.prefix_append [request] rest, rfl, rfl⟩
      | ok result =>
        obtain ⟨made, first, left, reply⟩ := ih (tracks.call (.get request))
        rw [if_neg fun both => off both.1, inner] at reply
        rw [CellStore.getMany_of_ok got, CellStore.getMany_of_ok read, left, reply]
        exact ⟨request :: made, (List.prefix_cons_inj request).2 first, rfl, rfl⟩

end Tracks

/-- A layer does to each call what its history says, and nothing else. A read of several rows and a
look whether a row holds anything are reads of single rows. -/
structure Faithful (start : σ) (history : FaultHistory) (store : FaultyStore σ) : Prop where
  answer : ∀ made, (CellStore.perform made store).1 =
    match history.failure? made with
    | some kind => .error (.unavailable ("injected " ++ kind ++ " failure"))
    | none => (CellStore.perform made store.inner).1
  inner : store.inner =
    history.passed.foldl (fun inner made => (CellStore.perform made inner).2) start
  calls : store.calls = history.listed
  getMany : ∀ requests, ∃ made, made <+: requests ∧
    (CellStore.getMany requests store).2 = store.after (made.map fun made => .call (.get made)) ∧
    (CellStore.getMany requests store).1 =
      if history.isOn .reads ∧ requests ≠ [] then .error (.unavailable "injected read failure")
      else (CellStore.getMany requests store.inner).1
  holds : ∀ request,
    (CellStore.holds request store).2 = store.after [.call (.get request)] ∧
    (CellStore.holds request store).1 =
      if history.isOn .reads then .error (.unavailable "injected read failure")
      else (CellStore.holds request store.inner).1

namespace Tracks

variable {start : σ} {history : FaultHistory} {store : FaultyStore σ}

theorem holds (tracks : Tracks start history store) (request : Get) :
    (CellStore.holds request store).2 = store.after [.call (.get request)] ∧
      (CellStore.holds request store).1 =
        if history.isOn .reads then .error (injected "read")
        else (CellStore.holds request store.inner).1 := by
  by_cases on : history.isOn .reads
  · rw [if_pos on, CellStore.holds, tracks.get_of_on on]
    exact ⟨rfl, rfl⟩
  · rw [if_neg on, CellStore.holds, CellStore.holds, (tracks.get_of_off on request).1]
    rcases CellStore.get request store.inner with ⟨answer | answer, next⟩ <;> exact ⟨rfl, rfl⟩

theorem faithful (tracks : Tracks start history store) : Faithful start history store where
  answer made := (tracks.perform made).1
  inner := tracks.inner
  calls := tracks.calls
  getMany := tracks.getMany
  holds := tracks.holds

theorem useUp (tracks : Tracks start history store) (move : FaultMove) :
    Tracks start (history ++ [move]) (store.useUp move) := by
  cases move with
  | set setting => exact tracks.set setting
  | call made =>
    have next := tracks.call made
    rw [FaultyStore.useUp]
    split
    · rename_i looked
      have isWrite : made.isWrite := ((Bool.and_eq_true ..).mp looked).1
      refine next.disarm ?_
      rw [next.seen, FaultHistory.writeCount_snoc_call, if_pos isWrite, tracks.seen]
      exact Nat.lt_succ_self _
    · exact next

theorem of_moves (start : σ) {run : FaultyStore σ → FaultMove → FaultyStore σ}
    (step : ∀ {history store}, Tracks start history store → ∀ move,
      Tracks start (history ++ [move]) (run store move)) (history : FaultHistory) :
    Tracks start history (history.foldl run { inner := start }) := by
  induction history using List.reverseRecOn with
  | nil => exact ⟨rfl, rfl, rfl, fun _ _ => rfl, rfl, rfl, rfl⟩
  | append_singleton past move ih =>
    rw [List.foldl_append]
    exact step ih move

end Tracks

/-- After any calls and settings a fault layer fails exactly the calls that its history says, and
passes on the others. So does a layer that uses its numbers up: each makes one write fail at most,
and none if all writes fail when its turn comes. -/
theorem fault_layer_is_faithful (start : σ) (history : FaultHistory) :
    Faithful start history (FaultyStore.after { inner := start } history) ∧
      Faithful start history (history.foldl useUp { inner := start }) :=
  ⟨(Tracks.of_moves start Tracks.step history).faithful,
    (Tracks.of_moves start Tracks.useUp history).faithful⟩

/-- Of the writes 0 to 3 the second fails with all others, which leaves its own number unused, and
the third by its number. What was listed before the list was cleared is not listed. -/
theorem fault_layer_is_faithful_past_armed_writes :
    let put (row : String) : StoreCall :=
      .put (({ row := Bytes.ofText row } : Put).add Sample.column [1])
    let past : FaultHistory := [.set (.failWrite 1), .set (.failWrite 2), .call (put "a"),
      .set (.failAllWrites true), .call (put "b"), .set (.failAllWrites false), .set .clearCalls]
    let store := FaultyStore.after { inner := ({} : MemoryStore) } past
    let last := store.after [.call (put "c"), .call (put "d"), .call .flush]
    (CellStore.perform (put "c") store).1 = .error (injected "write") ∧
      last.calls = [put "c", put "d", .flush] ∧ last.inner =
        [put "a", put "d", .flush].foldl (fun inner made => (CellStore.perform made inner).2) {} := by
  intro put past store last
  have third : past.failure? (put "c") = some "write" := by decide
  have answer := (fault_layer_is_faithful ({} : MemoryStore) past).1.answer (put "c")
  rw [third] at answer
  obtain ⟨ended, _⟩ := fault_layer_is_faithful ({} : MemoryStore)
    (past ++ [.call (put "c"), .call (put "d"), .call .flush])
  have whole : FaultyStore.after { inner := ({} : MemoryStore) }
      (past ++ [.call (put "c"), .call (put "d"), .call .flush]) = last := List.foldl_append ..
  rw [whole] at ended
  refine ⟨answer, ?_, ?_⟩
  · rw [ended.calls]
    decide
  · have through : FaultHistory.passed
        (past ++ [.call (put "c"), .call (put "d"), .call .flush]) =
          [put "a", put "d", .flush] := by decide
    rw [ended.inner, through]

end FaultyStore

end SnapshotTable
