import Mathlib.Data.List.Nodup
import SnapshotTable.Proofs.History
import SnapshotTable.Proofs.Run

/-!
The books of a coordinator. While each transaction is finished at most once, every pointer that was
handed out is in progress, invalid, committed or undone, and only one of these. A snapshot excludes
the first two, so it shows of the earlier transactions exactly those that had ended well.
-/

namespace SnapshotTable

set_option autoImplicit false

namespace Coordinator

/-- Runs that finish transactions after handing them out, each at most once, and that do not hand
out the greatest pointer. A call that ends nothing, such as a commit on a table without a
transaction, may be repeated. -/
inductive Proper (first : UInt64) : List CoordinatorCall → Prop where
  | start : Proper first []
  | begin {calls : List CoordinatorCall} : Proper first calls →
      ((startingAt first).run calls).nextPointer ≠ Version.latest.value →
        Proper first (calls ++ [.begin])
  | finish {calls : List CoordinatorCall} {call : CoordinatorCall} {tx : Transaction} :
      Proper first calls → call.subject? = some tx → tx ∈ (startingAt first).issued calls →
        (∀ earlier ∈ calls, earlier.subject? = some tx → earlier.ending? = none) →
          Proper first (calls ++ [call])

theorem Proper.of_append {first : UInt64} {calls more : List CoordinatorCall}
    (proper : Proper first (calls ++ more)) : Proper first calls := by
  induction more using List.reverseRecOn with
  | nil => rwa [List.append_nil] at proper
  | append_singleton more last ih =>
    apply ih
    rw [← List.append_assoc] at proper
    generalize eq : calls ++ more ++ [last] = all at proper
    cases proper with
    | start => simp at eq
    | begin proper _ => rwa [(List.append_inj' eq rfl).1]
    | finish proper _ _ _ => rwa [(List.append_inj' eq rfl).1]

def pointers (coordinator : Coordinator) (calls : List CoordinatorCall) : List Version :=
  (coordinator.issued calls).map (·.writePointer)

theorem issued_snoc (coordinator : Coordinator) (calls : List CoordinatorCall)
    (call : CoordinatorCall) : coordinator.issued (calls ++ [call]) =
      coordinator.issued calls ++ call.issued (coordinator.run calls) := by
  rw [issued_append]
  exact congrArg _ (List.append_nil _)

theorem partition_finish {coordinator : Coordinator} {pointer : Version}
    (running : coordinator.inProgress.contains pointer)
    (valid : coordinator.invalid.contains pointer = false) (outcome : Outcome)
    (changes : List Bytes) (undone : List Version) :
    let after := coordinator.finish pointer outcome changes
    (coordinator.inProgress.toList ++ coordinator.invalid.toList ++
        (coordinator.committedPointers ++ undone)).Perm
      (after.inProgress.toList ++ after.invalid.toList ++
        (after.committedPointers ++ (undone ++ if outcome = .undone then [pointer] else []))) := by
  intro after
  rw [List.perm_iff_count]
  intro version
  have left := (SortedSet.toList_erase_perm running).count_eq version
  have joined := (SortedSet.toList_add_perm valid).count_eq version
  rw [← List.singleton_append, List.count_append] at left joined
  rw [committedPointers_finish]
  cases outcome <;>
    simp only [after, finish, List.count_append, List.count_nil, reduceCtorEq, if_true,
      if_false] <;>
    omega

/-- What a run keeps in its books. -/
structure Tracked (first : UInt64) (calls : List CoordinatorCall) : Prop where
  positive : 0 < ((startingAt first).run calls).nextPointer.toNat
  below : ∀ tx ∈ (startingAt first).issued calls,
    tx.writePointer.toNat < ((startingAt first).run calls).nextPointer.toNat
  ascending : ((startingAt first).pointers calls).Pairwise (· < ·)
  sound : ∀ tx ∈ (startingAt first).issued calls,
    tx.validate = .ok () ∧ tx.readPointer.toNat + 1 = tx.writePointer.toNat
  subjects : ∀ call ∈ calls, ∀ tx, call.subject? = some tx → tx ∈ (startingAt first).issued calls
  partition : ((startingAt first).pointers calls).Perm
    (((startingAt first).run calls).inProgress.toList ++
      ((startingAt first).run calls).invalid.toList ++
        (((startingAt first).run calls).committedPointers ++ ends .undone calls))

namespace Tracked

variable {first : UInt64} {calls : List CoordinatorCall}

theorem start (first : UInt64) : Tracked first [] where
  positive := by
    change 0 < (if first ≤ 1 then 1 else first).toNat
    split
    · decide
    · rename_i above
      rw [UInt64.le_iff_toNat_le] at above
      exact Nat.zero_lt_of_lt (Nat.lt_of_not_le above)
  below := by simp [issued]
  ascending := .nil
  sound := by simp [issued]
  subjects := by simp
  partition := .nil

theorem nodup (tracked : Tracked first calls) : ((startingAt first).pointers calls).Nodup :=
  tracked.ascending.imp fun less same => by
    rw [same, Version.lt_iff] at less
    exact Nat.lt_irrefl _ less

theorem eq_of_pointer (tracked : Tracked first calls) {tx other : Transaction}
    (issued : tx ∈ (startingAt first).issued calls)
    (otherIssued : other ∈ (startingAt first).issued calls)
    (same : tx.writePointer = other.writePointer) : tx = other :=
  List.inj_on_of_nodup_map tracked.nodup issued otherIssued same

theorem lt_of_excluded (tracked : Tracked first calls) {version : Version}
    (excluded : ((startingAt first).run calls).begin.1.excludes version) :
    version.toNat < ((startingAt first).run calls).nextPointer.toNat := by
  have listed : version ∈ (startingAt first).pointers calls := by
    rw [tracked.partition.mem_iff, List.mem_append, List.mem_append, SortedSet.mem_toList_iff,
      SortedSet.mem_toList_iff]
    rw [excludes_begin, Bool.or_eq_true] at excluded
    exact .inl excluded
  obtain ⟨tx, issued, rfl⟩ := List.mem_map.1 listed
  exact tracked.below tx issued

theorem nextPointer_unused (tracked : Tracked first calls) :
    ((startingAt first).run calls).inProgress.contains
      ⟨((startingAt first).run calls).nextPointer⟩ = false := by
  rw [← Bool.not_eq_true]
  intro running
  have excluded : ((startingAt first).run calls).begin.1.excludes
      ⟨((startingAt first).run calls).nextPointer⟩ := by
    rw [excludes_begin, running, Bool.true_or]
  exact Nat.lt_irrefl _ (tracked.lt_of_excluded excluded)

theorem sound_begin (tracked : Tracked first calls)
    (room : ((startingAt first).run calls).nextPointer ≠ Version.latest.value) :
    let tx := ((startingAt first).run calls).begin.1
    tx.validate = .ok () ∧ tx.readPointer.toNat + 1 = tx.writePointer.toNat := by
  intro tx
  refine ⟨Transaction.validate_eq_ok_iff.2 ⟨fun same => room (congrArg Version.value same),
    fun version mem above => ?_⟩, ?_⟩
  · have less := tracked.lt_of_excluded ((SortedSet.mem_toList_iff ..).1 mem)
    rw [Version.lt_iff] at above
    exact Nat.lt_asymm less above
  · have read : tx.readPointer.toNat = ((startingAt first).run calls).nextPointer.toNat - 1 :=
      Version.toNat_sub_one tracked.positive
    rw [read]
    exact Nat.sub_add_cancel tracked.positive

theorem begin (tracked : Tracked first calls)
    (room : ((startingAt first).run calls).nextPointer ≠ Version.latest.value) :
    Tracked first (calls ++ [.begin]) := by
  have grown := toNat_nextPointer_of_room room
  have run : (startingAt first).run (calls ++ [.begin]) =
      ((startingAt first).run calls).begin.2 := run_append ..
  have issued : (startingAt first).issued (calls ++ [.begin]) =
      (startingAt first).issued calls ++ [((startingAt first).run calls).begin.1] :=
    issued_snoc ..
  have pointers : (startingAt first).pointers (calls ++ [.begin]) =
      (startingAt first).pointers calls ++
        [⟨((startingAt first).run calls).nextPointer⟩] := by
    rw [Coordinator.pointers, issued, List.map_append]
    rfl
  constructor
  case positive =>
    rw [run]
    omega
  case below =>
    intro tx mem
    rw [run, grown]
    rw [issued, List.mem_append, List.mem_singleton] at mem
    rcases mem with old | rfl
    · exact Nat.lt_succ_of_lt (tracked.below tx old)
    · exact Nat.lt_succ_self _
  case ascending =>
    rw [pointers, List.pairwise_append]
    refine ⟨tracked.ascending, List.pairwise_singleton .., fun version mem other same => ?_⟩
    obtain ⟨tx, issued, rfl⟩ := List.mem_map.1 mem
    rw [List.mem_singleton.1 same, Version.lt_iff]
    exact tracked.below tx issued
  case sound =>
    intro tx mem
    rw [issued, List.mem_append, List.mem_singleton] at mem
    rcases mem with old | rfl
    · exact tracked.sound tx old
    · exact tracked.sound_begin room
  case subjects =>
    intro call mem tx subject
    rw [issued]
    rcases List.mem_append.1 mem with old | new
    · exact List.mem_append_left _ (tracked.subjects call old tx subject)
    · rw [List.mem_singleton.1 new] at subject
      cases subject
  case partition =>
    have nothing : ends .undone [.begin] = [] := rfl
    have joined := SortedSet.toList_add_perm tracked.nextPointer_unused
    rw [pointers, run, ends_append, nothing, List.append_nil]
    refine (List.perm_append_singleton ..).trans ((tracked.partition.cons _).trans ?_)
    rw [← List.cons_append, ← List.cons_append]
    exact (joined.symm.append_right _).append_right _

section Unfinished

variable {tx : Transaction} (issued : tx ∈ (startingAt first).issued calls)
  (unfinished : ∀ call ∈ calls, call.subject? = some tx → call.ending? = none)

include issued unfinished

theorem unended (tracked : Tracked first calls) (outcome : Outcome) :
    ¬∃ call ∈ calls, call.ending? = some (tx.writePointer, outcome) := by
  rintro ⟨call, mem, ended⟩
  obtain ⟨other, subject, same⟩ := CoordinatorCall.subject?_of_ending? ended
  have here := tracked.eq_of_pointer (tracked.subjects call mem other subject) issued same
  rw [unfinished call mem (here ▸ subject)] at ended
  cases ended

theorem running (tracked : Tracked first calls) :
    ((startingAt first).run calls).inProgress.contains tx.writePointer := by
  have listed : tx.writePointer ∈ (startingAt first).pointers calls :=
    List.mem_map_of_mem issued
  rw [tracked.partition.mem_iff, List.mem_append, List.mem_append, List.mem_append,
    SortedSet.mem_toList_iff, SortedSet.mem_toList_iff, invalid_run_startingAt,
    mem_committedPointers_run_startingAt, mem_ends] at listed
  simpa [tracked.unended issued unfinished] using listed

theorem finish (tracked : Tracked first calls) {call : CoordinatorCall}
    (subject : call.subject? = some tx) : Tracked first (calls ++ [call]) := by
  have same : (startingAt first).issued (calls ++ [call]) = (startingAt first).issued calls := by
    rw [issued_snoc]
    cases call with
    | begin => cases subject
    | commit | abort => exact List.append_nil _
  have pointers : (startingAt first).pointers (calls ++ [call]) =
      (startingAt first).pointers calls := congrArg (List.map Transaction.writePointer) same
  have run : (startingAt first).run (calls ++ [call]) =
      call.run ((startingAt first).run calls) := run_append ..
  have next : (call.run ((startingAt first).run calls)).nextPointer =
      ((startingAt first).run calls).nextPointer := by
    rcases call.run_cases ((startingAt first).run calls) with rfl | ⟨_, _, kept⟩ |
      ⟨_, _, _, _, _, _, kept⟩
    · cases subject
    · rw [kept]
    · rw [kept]
      rfl
  constructor
  case positive =>
    rw [run, next]
    exact tracked.positive
  case below =>
    rw [run, next, same]
    exact tracked.below
  case ascending =>
    rw [pointers]
    exact tracked.ascending
  case sound =>
    rw [same]
    exact tracked.sound
  case subjects =>
    intro other mem ended named
    rw [same]
    rcases List.mem_append.1 mem with old | new
    · exact tracked.subjects other old ended named
    · rw [List.mem_singleton.1 new, subject] at named
      exact Option.some.inj named ▸ issued
  case partition =>
    rw [pointers, run, ends_append]
    rcases call.run_cases ((startingAt first).run calls) with rfl | ⟨none, _, kept⟩ |
      ⟨ended, outcome, changes, named, ends, _, kept⟩
    · cases subject
    · have nothing : Coordinator.ends .undone [call] = [] := by simp [Coordinator.ends, none]
      rw [kept, nothing, List.append_nil]
      exact tracked.partition
    · obtain rfl : tx = ended := Option.some.inj (subject.symm.trans named)
      have valid : ((startingAt first).run calls).invalid.contains tx.writePointer = false := by
        rw [← Bool.not_eq_true, invalid_run_startingAt]
        exact tracked.unended issued unfinished .invalid
      have undone : Coordinator.ends .undone [call] =
          if outcome = .undone then [tx.writePointer] else [] := by
        by_cases clean : outcome = .undone <;> simp [Coordinator.ends, ends, clean]
      rw [kept, undone]
      exact tracked.partition.trans (partition_finish
        (tracked.running issued unfinished) valid outcome changes _)

end Unfinished

theorem of_proper (proper : Proper first calls) : Tracked first calls := by
  induction proper with
  | start => exact .start first
  | begin _ room tracked => exact tracked.begin room
  | finish _ subject issued unfinished tracked => exact tracked.finish issued unfinished subject

theorem sees_iff (tracked : Tracked first calls) {earlier : Transaction}
    (issued : earlier ∈ (startingAt first).issued calls) :
    ((startingAt first).run calls).begin.1.sees earlier.writePointer ↔
      ∃ call ∈ calls, call.ending? = some (earlier.writePointer, .committed) ∨
        call.ending? = some (earlier.writePointer, .undone) := by
  have less : earlier.writePointer < ⟨((startingAt first).run calls).nextPointer⟩ :=
    Version.lt_iff.2 (tracked.below earlier issued)
  have behind : earlier.writePointer ≤ ((startingAt first).run calls).begin.1.readPointer :=
    Version.le_sub_one_of_lt less
  have ended : (∃ call ∈ calls, call.ending? = some (earlier.writePointer, .committed) ∨
      call.ending? = some (earlier.writePointer, .undone)) ↔ earlier.writePointer ∈
        ((startingAt first).run calls).committedPointers ++ ends .undone calls := by
    rw [List.mem_append, mem_committedPointers_run_startingAt, mem_ends]
    constructor
    · rintro ⟨call, mem, committed | undone⟩
      · exact .inl ⟨call, mem, committed⟩
      · exact .inr ⟨call, mem, undone⟩
    · rintro (⟨call, mem, committed⟩ | ⟨call, mem, undone⟩)
      · exact ⟨call, mem, .inl committed⟩
      · exact ⟨call, mem, .inr undone⟩
  have excluded : ((startingAt first).run calls).begin.1.excludes earlier.writePointer ↔
      earlier.writePointer ∈ ((startingAt first).run calls).inProgress.toList ++
        ((startingAt first).run calls).invalid.toList := by
    rw [excludes_begin, Bool.or_eq_true, List.mem_append, SortedSet.mem_toList_iff,
      SortedSet.mem_toList_iff]
  have listed := tracked.partition.mem_iff.1 (List.mem_map_of_mem issued)
  have apart := List.nodup_append.1 (tracked.partition.nodup_iff.1 tracked.nodup)
  rw [Transaction.sees, decide_eq_true behind, Bool.true_and, Bool.not_eq_true',
    ← Bool.not_eq_true, excluded, ended]
  constructor
  · exact (List.mem_append.1 listed).resolve_left
  · exact fun settled hidden => apart.2.2 _ hidden _ settled rfl

end Tracked

/-- In a run that finishes each transaction at most once, on whatever tables: pointers grow, every
transaction is valid and reads up to the pointer before its own, the pointers are those in progress,
the invalid, the committed and the undone ones, each once, and a transaction sees an earlier one
exactly if that had committed or was undone when it began. -/
theorem snapshots_are_exact {first : UInt64} {calls : List CoordinatorCall}
    (proper : Proper first calls) :
    let start := startingAt first
    (start.pointers calls).Pairwise (· < ·) ∧
      (∀ tx ∈ start.issued calls,
        tx.validate = .ok () ∧ tx.readPointer.toNat + 1 = tx.writePointer.toNat) ∧
      (start.pointers calls).Perm ((start.run calls).inProgress.toList ++
        (start.run calls).invalid.toList ++
          ((start.run calls).committedPointers ++ ends .undone calls)) ∧
      ∀ before after, calls = before ++ .begin :: after → ∀ earlier ∈ start.issued before,
        ((start.run before).begin.1.sees earlier.writePointer ↔
          ∃ call ∈ before, call.ending? = some (earlier.writePointer, .committed) ∨
            call.ending? = some (earlier.writePointer, .undone)) := by
  intro start
  have tracked := Tracked.of_proper proper
  refine ⟨tracked.ascending, tracked.sound, tracked.partition, ?_⟩
  rintro before after rfl earlier issued
  exact (Tracked.of_proper proper.of_append).sees_iff issued

/-- Of three transactions one commits, one cannot be rolled back and one is undone. -/
theorem snapshots_are_exact_after_three :
    let start := startingAt 1
    let first := start.begin.1
    let second := (start.run [.begin]).begin.1
    let third := (start.run [.begin, .begin]).begin.1
    let stuck : Site := ((Sample.site second []).1, { inner := {}, failFlush := true })
    let calls : List CoordinatorCall := [.begin, .begin, .begin, .commit first (Sample.site first []),
      .abort second stuck, .abort third (Sample.site third [])]
    let last := (start.run calls).begin.1
    (start.pointers (calls ++ [.begin])).Pairwise (· < ·) ∧ last.validate = .ok () ∧
      last.sees first.writePointer ∧ last.sees second.writePointer = false ∧
        last.sees third.writePointer := by
  intro start first second third stuck calls last
  have one : Proper 1 [.begin] := Proper.start.begin (by decide)
  have two : Proper 1 [.begin, .begin] := one.begin (by decide +kernel)
  have three : Proper 1 [.begin, .begin, .begin] := two.begin (by decide +kernel)
  have four : Proper 1 ([.begin, .begin, .begin] ++ [.commit first (Sample.site first [])]) :=
    three.finish rfl (by decide +kernel) (by decide +kernel)
  have five : Proper 1 ([.begin, .begin, .begin, .commit first (Sample.site first [])] ++
      [.abort second stuck]) :=
    four.finish rfl (by decide +kernel) (by decide +kernel)
  have six : Proper 1 calls := five.finish rfl (by decide +kernel) (by decide +kernel)
  have exact := snapshots_are_exact (six.begin (by decide +kernel))
  have sees := exact.2.2.2 calls [] rfl
  exact ⟨exact.1, (exact.2.1 last (by decide +kernel)).1,
    (sees first (by decide +kernel)).2 (by decide +kernel), by decide +kernel,
    (sees third (by decide +kernel)).2 (by decide +kernel)⟩

end Coordinator

end SnapshotTable
