import SnapshotTable.Coordinator
import SnapshotTable.Proofs.Descriptor
import SnapshotTable.Proofs.Reads
import SnapshotTable.Proofs.Stamp

/-!
What a coordinator does to a participant, and the order that it keeps among the transactions that it
has handed out and that are not over: each has a write pointer of its own, which no snapshot shows
that was handed out before the transaction was over.
-/

namespace SnapshotTable

set_option autoImplicit false

namespace Coordinator

theorem begin_of_none {coordinator : Coordinator} (finished : coordinator.inProgress = .empty)
    (valid : coordinator.invalid = .empty) :
    coordinator.begin =
      (Transaction.new ⟨coordinator.nextPointer - 1⟩ ⟨coordinator.nextPointer⟩ [],
        { coordinator with
          nextPointer := coordinator.nextPointer + 1
          inProgress := SortedSet.add .empty ⟨coordinator.nextPointer⟩ }) := by
  simp only [begin, finished, valid]
  rfl

theorem abort_valid {π : Type} [Participant π] {coordinator : Coordinator} {tx : Transaction}
    {participant : π} (valid : (coordinator.abort tx participant).2.2.invalid = .empty) :
    (Participant.rollback participant).1 = .ok () ∧
      coordinator.abort tx participant = (.ok (), (Participant.rollback participant).2,
        { coordinator with inProgress := coordinator.inProgress.erase tx.writePointer }) := by
  rw [abort] at valid ⊢
  cases result : (Participant.rollback participant).1 with
  | ok _ => exact ⟨rfl, by simp only [result]⟩
  | error error =>
    simp only [result] at valid
    have member : (SortedSet.add coordinator.invalid tx.writePointer).contains tx.writePointer =
        false := by
      rw [valid]
      rfl
    rw [SortedSet.contains_add, beq_self_eq_true, Bool.true_or] at member
    cases member

theorem commit_cases {σ : Type} [CellStore σ] {site : Table × σ} {tx : Transaction}
    {log : PendingLog} (bound : site.1.binding = some ⟨tx, log⟩) (valid : tx.validate = .ok ())
    (coordinator : Coordinator) :
    ((site.1.commit site.2).1 = .ok () ∧ coordinator.commit tx site =
      (.ok (), (site.1.unbind, (site.1.commit site.2).2), { coordinator with
        inProgress := coordinator.inProgress.erase tx.writePointer
        committed :=
          coordinator.committed ++ [(tx.writePointer, [(Descriptor.wire tx).write])] })) ∨
      ∃ error, (site.1.commit site.2).1 = .error error ∧ coordinator.commit tx site =
        (.error error, (coordinator.abort tx (site.1, (site.1.commit site.2).2)).2) := by
  have known := Table.changes_of_bound bound valid
  rw [commit]
  simp only [Participant.changes, known, Participant.commit, Participant.postCommit]
  cases (site.1.commit site.2).1 with
  | ok _ => exact .inl ⟨rfl, rfl⟩
  | error error => exact .inr ⟨error, rfl, rfl⟩

theorem invalid_of_commit {π : Type} [Participant π] {coordinator : Coordinator}
    {tx : Transaction} {participant : π}
    (valid : (coordinator.commit tx participant).2.2.invalid = .empty) :
    coordinator.invalid = .empty := by
  rw [commit] at valid
  split at valid
  · exact valid
  · split at valid
    · have aborted := abort_valid valid
      rw [aborted.2] at valid
      exact valid
    · exact valid

end Coordinator

/-- Where a transaction that is not over can be: kept in a slot, or bound to a table. -/
inductive Holder where
  | slot (number : Nat)
  | table (number : Nat)
deriving DecidableEq

abbrev Holders := Holder → Option Transaction

theorem Transaction.sees_eq_false_of_lt {tx : Transaction} {version : Version}
    (above : tx.readPointer < version) : tx.sees version = false := by
  have not : ¬version ≤ tx.readPointer := by
    rw [Version.le_iff]
    exact Nat.not_le.2 (Version.lt_iff.1 above)
  rw [sees, decide_eq_false not, Bool.false_and]

namespace Coordinator

/-- The greatest version was handed out. The transaction that has it is invalid, so it is never over,
and every later one excludes it and is invalid as well. -/
def Exhausted (coordinator : Coordinator) : Prop := coordinator.inProgress.contains .latest

def committedPointers (coordinator : Coordinator) : List Version := coordinator.committed.map (·.1)

/-- The transactions that are held are in progress and valid, and no two of them share a write
pointer with each other or with those to come. -/
structure Orderly (coordinator : Coordinator) (held : Holders) : Prop where
  valid : ∀ holder tx, held holder = some tx → tx.validate = .ok ()
  positive : ∀ holder tx, held holder = some tx → 0 < tx.writePointer.toNat
  counted : ∀ holder tx, held holder = some tx →
    coordinator.inProgress.contains tx.writePointer
  apart : ∀ holder other tx tx', held holder = some tx → held other = some tx' →
    tx.writePointer = tx'.writePointer → holder = other
  below : coordinator.Exhausted ∨ 0 < coordinator.nextPointer.toNat ∧
    ∀ holder tx, held holder = some tx →
      tx.writePointer.toNat < coordinator.nextPointer.toNat

/-- A transaction sees none of those that are held, and of those that have committed only the ones
that had when it began. -/
structure Hides (coordinator : Coordinator) (held : Holders) (tx : Transaction)
    (begun : List Version) : Prop where
  held : ∀ holder other, held holder = some other → tx.sees other.writePointer = false
  committed : ∀ version ∈ coordinator.committedPointers, tx.sees version → version ∈ begun
  behind : coordinator.Exhausted ∨ tx.readPointer.toNat < coordinator.nextPointer.toNat

variable {coordinator : Coordinator} {held next : Holders}

theorem excludes_begin (coordinator : Coordinator) (version : Version) :
    coordinator.begin.1.excludes version =
      (coordinator.inProgress.contains version || coordinator.invalid.contains version) := by
  have listed : coordinator.begin.1.excluded = SortedSet.ofMembers
      (SortedSet.toList coordinator.inProgress ++ SortedSet.toList coordinator.invalid) := rfl
  rw [Transaction.excludes, listed, SortedSet.contains_ofMembers, List.contains_append,
    ← SortedSet.contains_eq_contains_toList, ← SortedSet.contains_eq_contains_toList]

theorem not_exhausted_of_valid (valid : coordinator.begin.1.validate = .ok ()) :
    ¬coordinator.Exhausted := by
  intro exhausted
  obtain ⟨ordinary, bounded⟩ := Transaction.validate_eq_ok_iff.1 valid
  have excluded : coordinator.begin.1.excludes .latest := by
    rw [excludes_begin, exhausted, Bool.true_or]
  rw [Transaction.excludes, SortedSet.contains_eq_contains_toList, List.contains_iff_mem] at excluded
  exact bounded _ excluded (Version.lt_of_le_of_ne (Version.le_iff.2 (Version.toNat_le _)) ordinary)

theorem inProgress_begin (coordinator : Coordinator) (version : Version) :
    coordinator.begin.2.inProgress.contains version =
      (version == ⟨coordinator.nextPointer⟩ || coordinator.inProgress.contains version) :=
  SortedSet.contains_add ..

theorem toNat_nextPointer_of_room (room : coordinator.nextPointer ≠ Version.latest.value) :
    coordinator.begin.2.nextPointer.toNat = coordinator.nextPointer.toNat + 1 := by
  have other : coordinator.nextPointer.toNat ≠ 18446744073709551615 := fun same =>
    room (UInt64.toNat_inj.1 same)
  have bound := coordinator.nextPointer.toNat_lt
  change (coordinator.nextPointer + 1).toNat = _
  rw [UInt64.toNat_add]
  simp
  omega

theorem toNat_nextPointer_begin (ordinary : ¬coordinator.begin.2.Exhausted) :
    coordinator.begin.2.nextPointer.toNat = coordinator.nextPointer.toNat + 1 := by
  refine toNat_nextPointer_of_room fun same => ordinary ?_
  have greatest : Version.latest = ⟨coordinator.nextPointer⟩ := congrArg Version.mk same.symm
  rw [Exhausted, inProgress_begin, greatest, beq_self_eq_true, Bool.true_or]

theorem readPointer_begin (coordinator : Coordinator) (positive : 0 < coordinator.nextPointer.toNat) :
    coordinator.begin.1.readPointer.toNat < coordinator.nextPointer.toNat := by
  have read : coordinator.begin.1.readPointer.toNat = coordinator.nextPointer.toNat - 1 :=
    Version.toNat_sub_one positive
  omega

theorem exhausted_begin (exhausted : coordinator.Exhausted) : coordinator.begin.2.Exhausted := by
  rw [Exhausted, inProgress_begin, exhausted, Bool.or_true]

theorem Orderly.fresh (orderly : coordinator.Orderly held)
    (valid : coordinator.begin.1.validate = .ok ()) : 0 < coordinator.nextPointer.toNat ∧
      ∀ holder tx, held holder = some tx →
        tx.writePointer.toNat < coordinator.nextPointer.toNat :=
  orderly.below.resolve_left (not_exhausted_of_valid valid)

section Begin

variable {slot : Holder} (issued : ∀ holder tx, next holder = some tx → held holder = some tx ∨
  (holder = slot ∧ tx = coordinator.begin.1 ∧ tx.validate = .ok ()))

include issued

theorem Orderly.begin (orderly : coordinator.Orderly held) : coordinator.begin.2.Orderly next where
  valid := by
    intro holder tx holds
    rcases issued holder tx holds with old | ⟨_, _, valid⟩
    · exact orderly.valid holder tx old
    · exact valid
  positive := by
    intro holder tx holds
    rcases issued holder tx holds with old | ⟨_, rfl, valid⟩
    · exact orderly.positive holder tx old
    · exact (orderly.fresh valid).1
  counted := by
    intro holder tx holds
    rw [inProgress_begin]
    rcases issued holder tx holds with old | ⟨_, rfl, _⟩
    · rw [orderly.counted holder tx old, Bool.or_true]
    · exact Bool.or_eq_true_iff.2 (.inl (beq_self_eq_true _))
  apart := by
    intro holder other tx tx' holds holds' same
    rcases issued holder tx holds with old | ⟨here, rfl, valid⟩ <;>
      rcases issued other tx' holds' with old' | ⟨here', rfl, valid'⟩
    · exact orderly.apart holder other tx tx' old old' same
    · have less := (orderly.fresh valid').2 holder tx old
      rw [same] at less
      exact absurd less (Nat.lt_irrefl _)
    · have less := (orderly.fresh valid).2 other tx' old'
      rw [← same] at less
      exact absurd less (Nat.lt_irrefl _)
    · exact here.trans here'.symm
  below := by
    by_cases exhausted : coordinator.begin.2.Exhausted
    · exact .inl exhausted
    have grown := toNat_nextPointer_begin exhausted
    refine .inr ⟨by omega, fun holder tx holds => ?_⟩
    rcases issued holder tx holds with old | ⟨_, rfl, _⟩
    · have less := (orderly.below.resolve_left fun full => exhausted (exhausted_begin full)).2
        holder tx old
      omega
    · rw [grown]
      exact Nat.lt_succ_self _

theorem Orderly.hides_begun (orderly : coordinator.Orderly held) :
    coordinator.begin.2.Hides next coordinator.begin.1 coordinator.committedPointers where
  held := by
    intro holder other holds
    rcases issued holder other holds with old | ⟨_, rfl, valid⟩
    · rw [Transaction.sees, excludes_begin, orderly.counted holder other old]
      simp
    · have below := coordinator.readPointer_begin (orderly.fresh valid).1
      exact Transaction.sees_eq_false_of_lt (Version.lt_iff.2 below)
  committed := fun _ mem _ => mem
  behind := by
    by_cases exhausted : coordinator.begin.2.Exhausted
    · exact .inl exhausted
    have grown := toNat_nextPointer_begin exhausted
    have positive := (orderly.below.resolve_left fun full => exhausted (exhausted_begin full)).1
    have below := coordinator.readPointer_begin positive
    exact .inr (by omega)

theorem Hides.begin {tx : Transaction} {begun : List Version}
    (hides : coordinator.Hides held tx begun) : coordinator.begin.2.Hides next tx begun where
  held := by
    intro holder other holds
    rcases issued holder other holds with old | ⟨_, rfl, valid⟩
    · exact hides.held holder other old
    · have behind := hides.behind.resolve_left (not_exhausted_of_valid valid)
      exact Transaction.sees_eq_false_of_lt (Version.lt_iff.2 behind)
  committed := hides.committed
  behind := by
    by_cases exhausted : coordinator.begin.2.Exhausted
    · exact .inl exhausted
    have grown := toNat_nextPointer_begin exhausted
    have behind := hides.behind.resolve_left fun full => exhausted (exhausted_begin full)
    exact .inr (by omega)

end Begin

theorem Orderly.move (orderly : coordinator.Orderly held) {source target : Holder}
    (moved : ∀ holder tx, next holder = some tx → (holder ≠ source ∧ held holder = some tx) ∨
      (holder = target ∧ held source = some tx)) : coordinator.Orderly next := by
  have was : ∀ holder tx, next holder = some tx → ∃ former, held former = some tx ∧
      (former = holder ∧ holder ≠ source ∨ former = source ∧ holder = target) := by
    intro holder tx holds
    rcases moved holder tx holds with ⟨away, old⟩ | ⟨here, old⟩
    · exact ⟨holder, old, .inl ⟨rfl, away⟩⟩
    · exact ⟨source, old, .inr ⟨rfl, here⟩⟩
  constructor
  · intro holder tx holds
    obtain ⟨former, old, _⟩ := was holder tx holds
    exact orderly.valid former tx old
  · intro holder tx holds
    obtain ⟨former, old, _⟩ := was holder tx holds
    exact orderly.positive former tx old
  · intro holder tx holds
    obtain ⟨former, old, _⟩ := was holder tx holds
    exact orderly.counted former tx old
  · intro holder other tx tx' holds holds' same
    obtain ⟨former, old, place⟩ := was holder tx holds
    obtain ⟨former', old', place'⟩ := was other tx' holds'
    have one := orderly.apart former former' tx tx' old old' same
    rcases place with ⟨rfl, away⟩ | ⟨rfl, rfl⟩ <;> rcases place' with ⟨rfl, away'⟩ | ⟨rfl, rfl⟩
    · exact one
    · exact absurd one away
    · exact absurd one.symm away'
    · rfl
  · refine orderly.below.imp_right fun ⟨positive, below⟩ => ⟨positive, fun holder tx holds => ?_⟩
    obtain ⟨former, old, _⟩ := was holder tx holds
    exact below former tx old

theorem Hides.move {tx : Transaction} {begun : List Version}
    (hides : coordinator.Hides held tx begun) {source target : Holder}
    (moved : ∀ holder tx, next holder = some tx → (holder ≠ source ∧ held holder = some tx) ∨
      (holder = target ∧ held source = some tx)) : coordinator.Hides next tx begun where
  held := by
    intro holder other holds
    rcases moved holder other holds with ⟨_, old⟩ | ⟨_, old⟩
    · exact hides.held holder other old
    · exact hides.held source other old
  committed := hides.committed
  behind := hides.behind

section Finish

variable {holder : Holder} {ended : Transaction} (ends : held holder = some ended)
  (rest : ∀ other tx, next other = some tx → other ≠ holder ∧ held other = some tx)
  {after : Coordinator} (pointer : after.nextPointer = coordinator.nextPointer)
  (progress : after.inProgress = coordinator.inProgress.erase ended.writePointer)

include ends progress in
theorem Orderly.exhausted_finish (orderly : coordinator.Orderly held)
    (exhausted : coordinator.Exhausted) : after.Exhausted := by
  have ordinary := (Transaction.validate_eq_ok_iff.1 (orderly.valid _ _ ends)).1
  rw [Exhausted, progress, SortedSet.contains_erase, exhausted, Bool.and_true]
  simpa using ordinary.symm

include ends rest pointer progress

theorem Orderly.finish (orderly : coordinator.Orderly held) : after.Orderly next where
  valid := fun other tx holds => orderly.valid other tx (rest other tx holds).2
  positive := fun other tx holds => orderly.positive other tx (rest other tx holds).2
  counted := by
    intro other tx holds
    obtain ⟨away, old⟩ := rest other tx holds
    have distinct : tx.writePointer ≠ ended.writePointer := fun same =>
      away (orderly.apart other holder tx ended old ends same)
    rw [progress, SortedSet.contains_erase, orderly.counted other tx old]
    simpa using distinct
  apart := fun other another tx tx' holds holds' =>
    orderly.apart other another tx tx' (rest other tx holds).2 (rest another tx' holds').2
  below := by
    refine orderly.below.imp (orderly.exhausted_finish ends progress) fun ⟨positive, below⟩ => ?_
    rw [pointer]
    exact ⟨positive, fun other tx holds => below other tx (rest other tx holds).2⟩

theorem Hides.finish {tx : Transaction} {begun : List Version} (orderly : coordinator.Orderly held)
    (hides : coordinator.Hides held tx begun)
    (outcome : ∀ version ∈ after.committedPointers,
      version ∈ coordinator.committedPointers ∨ version = ended.writePointer) :
    after.Hides next tx begun where
  held := fun other another holds => hides.held other another (rest other another holds).2
  committed := by
    intro version mem seen
    rcases outcome version mem with old | rfl
    · exact hides.committed version old seen
    · rw [hides.held holder ended ends] at seen
      cases seen
  behind := by
    rw [pointer]
    exact hides.behind.imp_left (orderly.exhausted_finish ends progress)

end Finish

end Coordinator

end SnapshotTable
