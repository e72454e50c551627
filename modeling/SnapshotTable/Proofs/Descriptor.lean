import SnapshotTable.Proofs.Reads
import SnapshotTable.Proofs.Spelling
import SnapshotTable.Table.Commit

/-!
The byte form of a transaction. Both writing it and reading it ask whether the transaction is valid.
A valid one is read from each spelling of its fields, so what was written reads back, and what was
read, in whatever form, can be written and read again.
-/

namespace SnapshotTable

set_option autoImplicit false

namespace Transaction

theorem length_excluded_lt {tx : Transaction} (valid : tx.validate = .ok ()) :
    tx.excluded.toList.length < UInt64.size := by
  obtain ⟨ordinary, bounded⟩ := validate_eq_ok_iff.1 valid
  have below : tx.writePointer < .latest :=
    Version.lt_of_le_of_ne (Version.le_iff.2 (Version.toNat_le _)) ordinary
  have distinct : (tx.excluded.toList.map Version.toNat).Nodup :=
    List.pairwise_map.2 ((SortedSet.nodup_toList _).imp fun differ same =>
      differ (Version.ext_toNat same))
  have listed : tx.excluded.toList.map Version.toNat ⊆ List.range (tx.writePointer.toNat + 1) := by
    intro number mem
    obtain ⟨version, member, rfl⟩ := List.mem_map.1 mem
    have le := bounded version member
    rw [Version.lt_iff] at le
    exact List.mem_range.2 (by omega)
  have counted := distinct.length_le_of_subset listed
  have limit : Version.toNat .latest + 1 = UInt64.size := rfl
  rw [List.length_map, List.length_range] at counted
  rw [Version.lt_iff] at below
  omega

end Transaction

namespace Descriptor

theorem encode_of_valid {tx : Transaction} (valid : tx.validate = .ok ()) :
    encode tx = .ok (wire tx).write := by
  rw [encode, valid]
  rfl

theorem valid_of_encode {tx : Transaction} {bytes : Bytes} (written : encode tx = .ok bytes) :
    tx.validate = .ok () := by
  rw [encode] at written
  cases valid : tx.validate with
  | error error =>
    rw [valid] at written
    cases written
  | ok _ => rfl

/-- The transaction that fields describe, valid or not. -/
def described (fields : Wire) : Transaction :=
  .new ⟨fields.rp⟩ ⟨fields.wp⟩ (fields.ex.map Version.mk)

theorem excludes_described {fields : Wire} {version : Version} :
    (described fields).excludes version ↔ version.value ∈ fields.ex := by
  rw [Transaction.excludes, described, Transaction.new, SortedSet.contains_ofMembers_iff,
    List.mem_map]
  constructor
  · rintro ⟨number, member, rfl⟩
    exact member
  · intro member
    exact ⟨_, member, rfl⟩

theorem described_wire (tx : Transaction) : described (wire tx) = tx := by
  have members : (wire tx).ex.map Version.mk = tx.excluded.toList := by
    rw [wire, List.map_map]
    exact List.map_id _
  rw [described, members, Transaction.new, SortedSet.ofMembers_toList]
  rfl

theorem ofWire_of_other {fields : Wire} (other : fields.v ≠ 1) :
    ofWire fields = .error (.unsupportedVersion fields.v) := by
  have strange : fields.v ≠ formatVersion := other
  rw [ofWire, if_pos strange]
  rfl

theorem ofWire_of_current {fields : Wire} (current : fields.v = 1) :
    ofWire fields = (described fields).validate.map fun _ => described fields := by
  have same : ¬fields.v ≠ formatVersion := not_not_intro current
  rw [ofWire, if_neg same]
  change ((described fields).validate >>= fun _ => pure (described fields)) = _
  cases (described fields).validate <;> rfl

theorem ofWire_wire (tx : Transaction) : ofWire (wire tx) = tx.validate.map fun _ => tx := by
  rw [ofWire_of_current rfl, described_wire]

theorem decode_of_spells {fields : Wire} {bytes : Bytes} (spelled : fields.Spells bytes) :
    decode bytes = ofWire fields := by
  have read := Wire.read_spells spelled []
  rw [List.append_nil] at read
  simp only [decode, read, List.isEmpty_nil, if_true]

/-- However the fields of a transaction are spelled, they give the transaction back, or the error
that encoding it would have given. -/
theorem decode_spelling {tx : Transaction} {bytes : Bytes} (spelled : (wire tx).Spells bytes) :
    decode bytes = tx.validate.map fun _ => tx := by
  rw [decode_of_spells spelled, ofWire_wire]

theorem length_ex_lt {tx : Transaction} (valid : tx.validate = .ok ()) :
    (wire tx).ex.length < UInt64.size := by
  rw [wire, List.length_map]
  exact Transaction.length_excluded_lt valid

theorem decode_write {tx : Transaction} (valid : tx.validate = .ok ()) :
    decode (wire tx).write = .ok tx := by
  rw [decode_spelling (Wire.spells_write (length_ex_lt valid)), valid]
  rfl

theorem decode_of_encode {tx : Transaction} {bytes : Bytes} (written : encode tx = .ok bytes) :
    decode bytes = .ok tx := by
  have valid := valid_of_encode written
  rw [encode_of_valid valid] at written
  cases written
  exact decode_write valid

theorem valid_of_ofWire {fields : Wire} {tx : Transaction} (taken : ofWire fields = .ok tx) :
    tx.validate = .ok () := by
  by_cases current : fields.v = 1
  · rw [ofWire_of_current current] at taken
    cases valid : (described fields).validate with
    | error error =>
      rw [valid] at taken
      cases taken
    | ok _ =>
      rw [valid] at taken
      cases taken
      exact valid
  · rw [ofWire_of_other current] at taken
    cases taken

theorem valid_of_decode {tx : Transaction} {bytes : Bytes} (read : decode bytes = .ok tx) :
    tx.validate = .ok () := by
  rw [decode] at read
  split at read
  · cases read
  · split at read
    · exact valid_of_ofWire read
    · cases read

theorem encodes_iff {tx : Transaction} : (∃ bytes, encode tx = .ok bytes) ↔
    tx.writePointer ≠ .latest ∧ ∀ version, tx.excludes version → version ≤ tx.writePointer := by
  have members : (∀ version ∈ tx.excluded.toList, ¬ tx.writePointer < version) ↔
      ∀ version, tx.excludes version → version ≤ tx.writePointer := by
    refine forall_congr' fun version => ?_
    rw [Transaction.excludes, SortedSet.contains_eq_contains_toList, List.contains_iff_mem,
      Version.lt_iff, Version.le_iff, Nat.not_lt]
  rw [← members, ← Transaction.validate_eq_ok_iff]
  constructor
  · rintro ⟨bytes, written⟩
    exact valid_of_encode written
  · intro valid
    exact ⟨_, encode_of_valid valid⟩

/-- The transactions that can be written are those that every descriptor of theirs gives back, and
the only ones that any bytes give. -/
theorem written_transactions_read_back (tx : Transaction) :
    ((∃ bytes, encode tx = .ok bytes) ↔
      tx.writePointer ≠ .latest ∧ ∀ version, tx.excludes version → version ≤ tx.writePointer) ∧
    (∀ bytes, encode tx = .ok bytes → decode bytes = .ok tx) ∧
    ∀ bytes, decode bytes = .ok tx → tx.validate = .ok () ∧
      ∃ canonical, encode tx = .ok canonical ∧ decode canonical = .ok tx := by
  refine ⟨encodes_iff, fun bytes written => ?_, fun bytes read => ?_⟩
  · have valid := valid_of_encode written
    rw [encode_of_valid valid] at written
    cases written
    exact decode_write valid
  · have valid := valid_of_decode read
    exact ⟨valid, _, encode_of_valid valid, decode_write valid⟩

/-- Heads of each width in what is written, and an open map in another order, with heads wider than
they need be, a tag and an unknown field, in what is read. -/
theorem wide_transaction_reads_back :
    let tx := Transaction.new ⟨7⟩ ⟨0x100000000⟩ [⟨23⟩, ⟨24⟩, ⟨0x100⟩, ⟨0x10000⟩, ⟨0x100000000⟩]
    let written : Bytes :=
      [0xa4, 0x61, 0x76, 0x01, 0x62, 0x65, 0x78, 0x85, 0x17, 0x18, 0x18, 0x19, 0x01, 0x00,
        0x1a, 0x00, 0x01, 0x00, 0x00, 0x1b, 0x00, 0x00, 0x00, 0x01, 0x00, 0x00, 0x00, 0x00,
        0x62, 0x72, 0x70, 0x07, 0x62, 0x77, 0x70, 0x1b, 0x00, 0x00, 0x00, 0x01, 0x00, 0x00, 0x00,
        0x00]
    let foreign : Bytes :=
      [0xbf, 0x62, 0x77, 0x70, 0x1b, 0x00, 0x00, 0x00, 0x01, 0x00, 0x00, 0x00, 0x00,
        0x78, 0x02, 0x65, 0x78, 0x9f, 0x1b, 0x00, 0x00, 0x00, 0x01, 0x00, 0x00, 0x00, 0x00,
        0x19, 0x01, 0x00, 0x18, 0x17, 0x18, 0x18, 0x1a, 0x00, 0x01, 0x00, 0x00, 0xff,
        0x61, 0x7a, 0x81, 0xf6, 0x62, 0x72, 0x70, 0x19, 0x00, 0x07, 0xc1, 0x61, 0x76, 0x18, 0x01,
        0xff]
    encode tx = .ok written ∧ decode written = .ok tx ∧
      decode foreign = .ok tx ∧ foreign ≠ written ∧ tx.validate = .ok () := by
  intro tx written foreign
  have made : encode tx = .ok written := by decide +kernel
  have read : decode foreign = .ok tx := by decide +kernel
  obtain ⟨_, writes, reads⟩ := written_transactions_read_back tx
  exact ⟨made, writes written made, read, by decide, (reads foreign read).1⟩

end Descriptor

theorem Table.changes_of_bound {table : Table} {tx : Transaction} {log : PendingLog}
    (bound : table.binding = some ⟨tx, log⟩) (valid : tx.validate = .ok ()) :
    table.changes = .ok [(Descriptor.wire tx).write] := by
  simp only [changes, changeDescriptor, Table.bound, bound, Descriptor.encode_of_valid valid]
  rfl

end SnapshotTable
