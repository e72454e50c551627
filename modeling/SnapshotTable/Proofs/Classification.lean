import SnapshotTable.Proofs.Canonical

/-!
What decoding makes of well-formed fields. The format version counts first, then the write pointer,
then the exclusions, of which the lowest above the write pointer is named.
-/

namespace SnapshotTable

set_option autoImplicit false

namespace Transaction

variable {tx : Transaction}

theorem validate_of_latest (latest : tx.writePointer = .latest) :
    tx.validate = .error .latestWritePointer := by
  have same : tx.writePointer.isLatest := by simp [Version.isLatest, latest]
  rw [validate, if_pos same]

theorem validate_of_above (ordinary : tx.writePointer ≠ .latest)
    (above : ∃ version, tx.excludes version ∧ tx.writePointer < version) :
    ∃ least, tx.excludes least ∧ tx.writePointer < least ∧
      (∀ version, tx.excludes version → tx.writePointer < version → least ≤ version) ∧
      tx.validate = .error (.excludedAbove least tx.writePointer) := by
  have other : ¬tx.writePointer.isLatest := by simp [Version.isLatest, ordinary]
  have listed (version : Version) : tx.excludes version ↔ version ∈ tx.excluded.toList :=
    (SortedSet.mem_toList_iff _ _).symm
  rw [validate, if_neg other]
  cases found : tx.excluded.toList.find? (tx.writePointer < ·) with
  | none =>
    obtain ⟨version, excluded, higher⟩ := above
    have := List.find?_eq_none.1 found version ((listed version).1 excluded)
    exact absurd higher (by simpa using this)
  | some least =>
    obtain ⟨higher, earlier, later, split, lower⟩ := List.find?_eq_some_iff_append.1 found
    have ascending := SortedSet.ascending_toList tx.excluded
    rw [split] at ascending
    have following := (List.pairwise_cons.1 (List.pairwise_append.1 ascending).2.1).1
    refine ⟨least, (listed least).2 (List.mem_of_find?_eq_some found), by simpa using higher,
      fun version excluded beyond => ?_, rfl⟩
    have member := (listed version).1 excluded
    rw [split] at member
    -- those before the one found do not lie above the pointer, those after it lie above it
    rcases List.mem_append.1 member with before | after
    · have := lower version before
      exact absurd beyond (by simpa using this)
    · rcases List.mem_cons.1 after with rfl | after
      · exact Version.le_refl _
      · exact Version.le_of_lt (Version.compare_eq_lt.1 (following version after))

end Transaction

namespace Descriptor

variable {fields : Wire}

theorem decode_of_canonical {bytes : Bytes} (canonical : fields.Canonical bytes) :
    decode bytes = ofWire fields := by
  obtain ⟨short, rfl⟩ := Wire.canonical_iff.1 canonical
  exact decode_of_spells (Wire.spells_write short)

/-- Fields have a canonical form if their exclusions can be counted, and from it decoding tells what
is the matter with them: another format version whatever else they say, or else a write pointer that
is none, or else the lowest exclusion above it, or else nothing, and then the transaction has just
the pointers and the exclusions that the fields name. -/
theorem canonical_fields_are_classified (fields : Wire) :
    ((∃ bytes, fields.Canonical bytes) ↔ fields.ex.length < UInt64.size) ∧
    ∀ bytes, fields.Canonical bytes →
      (fields.v ≠ 1 → decode bytes = .error (.unsupportedVersion fields.v)) ∧
      (fields.v = 1 → fields.wp = Version.latest.value →
        decode bytes = .error .latestWritePointer) ∧
      (fields.v = 1 → fields.wp ≠ Version.latest.value →
        (∃ number ∈ fields.ex, fields.wp < number) → ∃ least ∈ fields.ex, fields.wp < least ∧
          (∀ number ∈ fields.ex, fields.wp < number → least ≤ number) ∧
          decode bytes = .error (.excludedAbove ⟨least⟩ ⟨fields.wp⟩)) ∧
      (fields.v = 1 → fields.wp ≠ Version.latest.value →
        (∀ number ∈ fields.ex, number ≤ fields.wp) → ∃ tx, decode bytes = .ok tx ∧
          tx.readPointer.value = fields.rp ∧ tx.writePointer.value = fields.wp ∧
          ∀ version, tx.excludes version ↔ version.value ∈ fields.ex) := by
  have ordinary (other : fields.wp ≠ Version.latest.value) :
      (described fields).writePointer ≠ .latest := fun same => other (congrArg Version.value same)
  constructor
  · constructor
    · rintro ⟨bytes, canonical⟩
      exact (Wire.canonical_iff.1 canonical).1
    · intro short
      exact ⟨_, Wire.canonical_iff.2 ⟨short, rfl⟩⟩
  intro bytes canonical
  have decoded := decode_of_canonical canonical
  refine ⟨fun other => ?_, fun current latest => ?_, fun current other above => ?_,
    fun current other bounded => ?_⟩
  · exact decoded.trans (ofWire_of_other other)
  · have named : (described fields).writePointer = .latest := congrArg Version.mk latest
    rw [decoded, ofWire_of_current current, Transaction.validate_of_latest named]
    rfl
  · obtain ⟨number, member, higher⟩ := above
    obtain ⟨least, excluded, beyond, lowest, failed⟩ := Transaction.validate_of_above (ordinary other)
      ⟨⟨number⟩, excludes_described.2 member, higher⟩
    refine ⟨least.value, excludes_described.1 excluded, beyond, fun number member higher => ?_, ?_⟩
    · exact lowest ⟨number⟩ (excludes_described.2 member) higher
    · rw [decoded, ofWire_of_current current, failed]
      rfl
  · have valid : (described fields).validate = .ok () := by
      apply Transaction.validate_eq_ok_iff.2
      refine ⟨ordinary other, fun version member higher => ?_⟩
      have named := excludes_described.1 ((SortedSet.mem_toList_iff _ _).1 member)
      have below : version ≤ (described fields).writePointer := bounded version.value named
      exact Nat.not_lt.2 (Version.le_iff.1 below) (Version.lt_iff.1 higher)
    refine ⟨described fields, ?_, rfl, rfl, fun version => excludes_described⟩
    rw [decoded, ofWire_of_current current, valid]
    rfl

/-- The exclusion 9 is too high for the write pointer 8 and not for 9, however often and wherever the
list names it, and it does not matter in another format version. -/
theorem canonical_fields_are_classified_at_write_pointer :
    let fields (v wp : UInt64) : Wire := ⟨v, [9, 3, 9, 8], 5, wp⟩
    (∀ v wp, (fields v wp).Canonical (fields v wp).write) ∧
      decode (fields 2 8).write = .error (.unsupportedVersion 2) ∧
      decode (fields 1 8).write = .error (.excludedAbove ⟨9⟩ ⟨8⟩) ∧
      ∃ tx, decode (fields 1 9).write = .ok tx ∧ tx.excludes ⟨3⟩ ∧ ¬tx.excludes ⟨4⟩ := by
  intro fields
  have canonical (v wp : UInt64) : (fields v wp).Canonical (fields v wp).write :=
    Wire.canonical_iff.2 ⟨(by decide : 4 < UInt64.size), rfl⟩
  have classified (v wp : UInt64) :=
    (canonical_fields_are_classified (fields v wp)).2 _ (canonical v wp)
  refine ⟨canonical, (classified 2 8).1 (by decide), ?_, ?_⟩
  · obtain ⟨least, member, above, _, failed⟩ :=
      (classified 1 8).2.2.1 rfl (by decide) ⟨9, by decide, by decide⟩
    have only : ∀ number ∈ [9, 3, 9, 8], (8 : UInt64) < number → number = 9 := by simp
    rw [only least member above] at failed
    exact failed
  · obtain ⟨tx, read, _, _, excludes⟩ := (classified 1 9).2.2.2 rfl (by decide) (by simp [fields])
    refine ⟨tx, read, (excludes ⟨3⟩).2 (by decide), fun excluded => ?_⟩
    exact absurd ((excludes ⟨4⟩).1 excluded) (by decide)

end Descriptor

end SnapshotTable
