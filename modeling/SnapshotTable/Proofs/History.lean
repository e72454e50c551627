import Mathlib.Data.List.Induction
import SnapshotTable.Proofs.Coordination

/-!
Histories of a coordinator: calls of any kind in any order, stray and repeated ones included, on
tables over stores of any kind. What the coordinator keeps is settled by which transactions the
calls have ended, and how.
-/

namespace SnapshotTable

set_option autoImplicit false

inductive CoordinatorCall : Type 1 where
  | begin
  | commit {σ : Type} [CellStore σ] (tx : Transaction) (site : Table × σ)
  | abort {σ : Type} [CellStore σ] (tx : Transaction) (site : Table × σ)

/-- How a transaction can be over. It is invalid if its rollback failed. -/
inductive Outcome where
  | committed
  | undone
  | invalid
deriving DecidableEq

namespace Outcome

variable {π : Type} [Participant π]

def ofRollback (participant : π) : Outcome :=
  match (Participant.rollback participant).1 with
  | .ok () => undone
  | .error _ => invalid

/-- A commit of a participant that cannot tell its changes ends nothing; one that fails is followed
by a rollback. -/
def ofCommit? (participant : π) : Option Outcome :=
  match Participant.changes participant with
  | .error _ => none
  | .ok _ =>
    match Participant.commit participant with
    | (.ok (), _) => some committed
    | (.error _, participant) => some (ofRollback participant)

end Outcome

namespace Coordinator

/-- A transaction is over. Its changes are recorded if it has committed. -/
def finish (coordinator : Coordinator) (pointer : Version) (outcome : Outcome)
    (changes : List Bytes) : Coordinator :=
  { coordinator with
    inProgress := coordinator.inProgress.erase pointer
    invalid :=
      if outcome = .invalid then SortedSet.add coordinator.invalid pointer else coordinator.invalid
    committed := coordinator.committed ++ if outcome = .committed then [(pointer, changes)] else [] }

variable {π : Type} [Participant π]

theorem abort_participant (coordinator : Coordinator) (tx : Transaction) (participant : π) :
    (coordinator.abort tx participant).2.1 = (Participant.rollback participant).2 := by
  rw [abort]
  rcases Participant.rollback participant with ⟨_ | _, next⟩ <;> rfl

theorem abort_eq_finish (coordinator : Coordinator) (tx : Transaction) (participant : π) :
    (coordinator.abort tx participant).2.2 =
      coordinator.finish tx.writePointer (.ofRollback participant) [] := by
  rw [abort, Outcome.ofRollback]
  rcases Participant.rollback participant with ⟨_ | _, next⟩ <;> simp [finish]

theorem commit_eq_finish (coordinator : Coordinator) (tx : Transaction) (participant : π) :
    (Outcome.ofCommit? participant = none ∧
      (coordinator.commit tx participant).2.2 = coordinator) ∨
    ∃ outcome changes, Outcome.ofCommit? participant = some outcome ∧
      (coordinator.commit tx participant).2.2 =
        coordinator.finish tx.writePointer outcome changes := by
  rw [commit, Outcome.ofCommit?]
  cases Participant.changes participant with
  | error error => exact .inl ⟨rfl, rfl⟩
  | ok changes =>
    refine .inr ?_
    rcases Participant.commit participant with ⟨_ | _, participant⟩
    · exact ⟨_, [], rfl, coordinator.abort_eq_finish tx participant⟩
    · exact ⟨_, changes, rfl, by simp [finish]⟩

theorem commit_ok_iff {coordinator : Coordinator} {tx : Transaction} {participant : π} :
    (coordinator.commit tx participant).1 = .ok () ↔
      Outcome.ofCommit? participant = some .committed := by
  rw [commit, Outcome.ofCommit?]
  cases Participant.changes participant with
  | error error => simp
  | ok changes =>
    rcases Participant.commit participant with ⟨_ | _, participant⟩
    · have other : Outcome.ofRollback participant ≠ .committed := by
        rw [Outcome.ofRollback]
        split <;> simp
      simp [other]
    · simp

end Coordinator

namespace CoordinatorCall

def subject? : CoordinatorCall → Option Transaction
  | begin => none
  | commit tx _ | abort tx _ => some tx

/-- The write pointer of the transaction that a call ends, and how it ends it. -/
def ending? : CoordinatorCall → Option (Version × Outcome)
  | begin => none
  | commit tx site => (Outcome.ofCommit? site).map (tx.writePointer, ·)
  | abort tx site => some (tx.writePointer, .ofRollback site)

def run (coordinator : Coordinator) : CoordinatorCall → Coordinator
  | begin => coordinator.begin.2
  | commit tx site => (coordinator.commit tx site).2.2
  | abort tx site => (coordinator.abort tx site).2.2

def issued (coordinator : Coordinator) : CoordinatorCall → List Transaction
  | begin => [coordinator.begin.1]
  | commit .. | abort .. => []

theorem run_cases (coordinator : Coordinator) (call : CoordinatorCall) :
    call = begin ∨
    (call.ending? = none ∧ call.issued coordinator = [] ∧ call.run coordinator = coordinator) ∨
    ∃ tx outcome changes, call.subject? = some tx ∧
      call.ending? = some (tx.writePointer, outcome) ∧ call.issued coordinator = [] ∧
        call.run coordinator = coordinator.finish tx.writePointer outcome changes := by
  cases call with
  | begin => exact .inl rfl
  | commit tx site =>
    rcases coordinator.commit_eq_finish tx site with ⟨none, same⟩ | ⟨outcome, changes, some, same⟩
    · exact .inr (.inl ⟨by rw [ending?, none]; rfl, rfl, same⟩)
    · exact .inr (.inr ⟨tx, outcome, changes, rfl, by rw [ending?, some]; rfl, rfl, same⟩)
  | abort tx site =>
    exact .inr (.inr ⟨tx, _, [], rfl, rfl, rfl, coordinator.abort_eq_finish tx site⟩)

theorem subject?_of_ending? {call : CoordinatorCall} {version : Version} {outcome : Outcome}
    (ends : call.ending? = some (version, outcome)) :
    ∃ tx, call.subject? = some tx ∧ tx.writePointer = version := by
  cases call with
  | begin => cases ends
  | commit tx site =>
    obtain ⟨_, _, same⟩ := Option.map_eq_some_iff.1 ends
    exact ⟨tx, rfl, congrArg Prod.fst same⟩
  | abort tx site => exact ⟨tx, rfl, congrArg Prod.fst (Option.some.inj ends)⟩

end CoordinatorCall

namespace Coordinator

def run (coordinator : Coordinator) (calls : List CoordinatorCall) : Coordinator :=
  calls.foldl CoordinatorCall.run coordinator

def issued (coordinator : Coordinator) : List CoordinatorCall → List Transaction
  | [] => []
  | call :: rest => call.issued coordinator ++ issued (call.run coordinator) rest

/-- The write pointers of the transactions that some calls end in one way, in order. -/
def ends (outcome : Outcome) (calls : List CoordinatorCall) : List Version :=
  ((calls.filterMap (·.ending?)).filter (·.2 = outcome)).map (·.1)

theorem run_append (coordinator : Coordinator) (first second : List CoordinatorCall) :
    coordinator.run (first ++ second) = (coordinator.run first).run second :=
  List.foldl_append ..

theorem issued_append (coordinator : Coordinator) (first second : List CoordinatorCall) :
    coordinator.issued (first ++ second) =
      coordinator.issued first ++ (coordinator.run first).issued second := by
  induction first generalizing coordinator with
  | nil => rfl
  | cons call rest ih =>
    rw [List.cons_append, issued, ih, ← List.append_assoc]
    rfl

theorem ends_append (outcome : Outcome) (first second : List CoordinatorCall) :
    ends outcome (first ++ second) = ends outcome first ++ ends outcome second := by
  simp [ends]

theorem mem_ends {outcome : Outcome} {calls : List CoordinatorCall} {version : Version} :
    version ∈ ends outcome calls ↔ ∃ call ∈ calls, call.ending? = some (version, outcome) := by
  simp only [ends, List.mem_map, List.mem_filter, List.mem_filterMap, decide_eq_true_eq,
    Prod.exists]
  constructor
  · rintro ⟨_, _, ⟨⟨call, mem, ended⟩, rfl⟩, rfl⟩
    exact ⟨call, mem, ended⟩
  · rintro ⟨call, mem, ended⟩
    exact ⟨_, _, ⟨⟨call, mem, ended⟩, rfl⟩, rfl⟩

section Finish

variable (coordinator : Coordinator) (pointer : Version) (outcome : Outcome) (changes : List Bytes)

theorem committedPointers_finish :
    (coordinator.finish pointer outcome changes).committedPointers =
      coordinator.committedPointers ++ if outcome = .committed then [pointer] else [] := by
  rw [finish, committedPointers, List.map_append]
  split <;> rfl

theorem invalid_finish (version : Version) :
    (coordinator.finish pointer outcome changes).invalid.contains version =
      ((outcome = .invalid && version == pointer) || coordinator.invalid.contains version) := by
  rw [finish]
  by_cases failed : outcome = .invalid
  · simp [failed, SortedSet.contains_add]
  · simp [failed]

theorem inProgress_finish (version : Version) :
    (coordinator.finish pointer outcome changes).inProgress.contains version =
      (version != pointer && coordinator.inProgress.contains version) :=
  SortedSet.contains_erase ..

end Finish

theorem committedPointers_run (coordinator : Coordinator) (calls : List CoordinatorCall) :
    (coordinator.run calls).committedPointers =
      coordinator.committedPointers ++ ends .committed calls := by
  induction calls generalizing coordinator with
  | nil => exact (List.append_nil _).symm
  | cons call rest ih =>
    have step : (call.run coordinator).committedPointers =
        coordinator.committedPointers ++ ends .committed [call] := by
      rcases call.run_cases coordinator with rfl | ⟨none, _, same⟩ |
        ⟨tx, outcome, changes, _, ended, _, same⟩
      · exact (List.append_nil _).symm
      · rw [same]
        simp [ends, none]
      · rw [same, committedPointers_finish]
        by_cases succeeded : outcome = .committed <;> simp [ends, ended, succeeded]
    have split : ends .committed (call :: rest) =
        ends .committed [call] ++ ends .committed rest := ends_append _ [call] rest
    rw [split, ← List.append_assoc, ← step]
    exact ih _

theorem invalid_run (coordinator : Coordinator) (calls : List CoordinatorCall) (version : Version) :
    (coordinator.run calls).invalid.contains version ↔
      coordinator.invalid.contains version ∨
        ∃ call ∈ calls, call.ending? = some (version, .invalid) := by
  induction calls generalizing coordinator with
  | nil => simp [run]
  | cons call rest ih =>
    have step : (call.run coordinator).invalid.contains version ↔
        call.ending? = some (version, .invalid) ∨ coordinator.invalid.contains version := by
      rcases call.run_cases coordinator with rfl | ⟨none, _, same⟩ |
        ⟨tx, outcome, changes, _, ended, _, same⟩
      · simp only [CoordinatorCall.ending?, reduceCtorEq, false_or]
        rfl
      · simp [same, none]
      · rw [same, invalid_finish, ended]
        simp only [Bool.or_eq_true, Bool.and_eq_true, decide_eq_true_eq, beq_iff_eq,
          Option.some.injEq, Prod.mk.injEq]
        rw [and_comm, eq_comm (a := version)]
    change ((call.run coordinator).run rest).invalid.contains version ↔ _
    simp only [ih, step, List.mem_cons, exists_eq_or_imp]
    rw [or_comm (a := call.ending? = _), or_assoc]

section Start

variable {first : UInt64} {calls : List CoordinatorCall} {pointer : Version}

theorem mem_committedPointers_run_startingAt :
    pointer ∈ ((startingAt first).run calls).committedPointers ↔
      ∃ call ∈ calls, call.ending? = some (pointer, .committed) := by
  have none : (startingAt first).committedPointers = [] := rfl
  rw [committedPointers_run, none, List.nil_append, mem_ends]

theorem invalid_run_startingAt :
    ((startingAt first).run calls).invalid.contains pointer ↔
      ∃ call ∈ calls, call.ending? = some (pointer, .invalid) := by
  have none : (startingAt first).invalid.contains pointer = false := rfl
  rw [invalid_run, none]
  simp

end Start

theorem issued_again_of_inProgress {coordinator : Coordinator} {calls : List CoordinatorCall}
    {version : Version} (running : (coordinator.run calls).inProgress.contains version)
    {call : CoordinatorCall} (mem : call ∈ calls) {outcome : Outcome}
    (ended : call.ending? = some (version, outcome)) : ∃ earlier later,
      calls = earlier ++ .begin :: later ∧ call ∈ earlier ∧
        (coordinator.run earlier).begin.1.writePointer = version := by
  induction calls using List.reverseRecOn with
  | nil => cases mem
  | append_singleton calls last ih =>
    rw [run_append] at running
    change (last.run (coordinator.run calls)).inProgress.contains version at running
    have extend : (coordinator.run calls).inProgress.contains version → call ∈ calls →
        ∃ earlier later, calls ++ [last] = earlier ++ .begin :: later ∧ call ∈ earlier ∧
          (coordinator.run earlier).begin.1.writePointer = version := by
      intro running mem
      obtain ⟨earlier, later, rfl, before, pointer⟩ := ih running mem
      exact ⟨earlier, later ++ [last], by simp, before, pointer⟩
    rcases last.run_cases (coordinator.run calls) with rfl | ⟨none, _, same⟩ |
      ⟨tx, outcome', changes, _, ended', _, same⟩
    · have before : call ∈ calls := by
        rcases List.mem_append.1 mem with mem | mem
        · exact mem
        · rw [List.mem_singleton.1 mem] at ended
          cases ended
      change (coordinator.run calls).begin.2.inProgress.contains version at running
      rw [inProgress_begin, Bool.or_eq_true, beq_iff_eq] at running
      rcases running with rfl | running
      · exact ⟨calls, [], rfl, before, rfl⟩
      · exact extend running before
    · rw [same] at running
      refine extend running ((List.mem_append.1 mem).resolve_right fun mem => ?_)
      rw [List.mem_singleton.1 mem, none] at ended
      cases ended
    · rw [same, inProgress_finish, Bool.and_eq_true, bne_iff_ne] at running
      refine extend running.2 ((List.mem_append.1 mem).resolve_right fun mem => ?_)
      rw [List.mem_singleton.1 mem, ended'] at ended
      exact running.1 (congrArg Prod.fst (Option.some.inj ended)).symm

end Coordinator

end SnapshotTable
