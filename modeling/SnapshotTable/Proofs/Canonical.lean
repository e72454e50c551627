import SnapshotTable.Proofs.Descriptor

/-!
The canonical form of the fields of a transaction: all lengths given, every head in the fewest bytes
that it has a form in, the keys in order. Fields that can be counted have exactly one canonical form,
and the form tells the fields.
-/

namespace SnapshotTable

set_option autoImplicit false

namespace Cbor.Head

variable {major argument : Nat} {bytes : Bytes}

/-- The bytes are a form of a head, and no form of it has fewer. -/
structure Minimal (major argument : Nat) (bytes : Bytes) : Prop where
  spells : Spells major argument bytes
  least : ∀ other, Spells major argument other → bytes.length ≤ other.length

theorem Spells.argument_lt (spelled : Spells major argument bytes) : argument < UInt64.size := by
  cases spelled with
  | narrow small => exact Nat.lt_trans small (by decide)
  | @wide minor width form small =>
    refine Nat.lt_of_lt_of_le small ?_
    obtain ⟨_, rfl⟩ | ⟨_, rfl⟩ | ⟨_, rfl⟩ | ⟨_, rfl⟩ := form_cases form <;> decide

theorem Spells.eq_of_length {other : Bytes} (spelled : Spells major argument bytes)
    (again : Spells major argument other) (same : bytes.length = other.length) : bytes = other := by
  have positive : ∀ {minor width}, (minor, width) ∈ [(24, 1), (25, 2), (26, 4), (27, 8)] →
      0 < width := by
    intro minor width form
    have := form_cases form
    omega
  cases spelled with
  | narrow =>
    cases again with
    | narrow => rfl
    | wide form =>
      have := positive form
      simp only [List.length_cons, List.length_nil, Bytes.length_bigEndian] at same
      omega
  | @wide minor width form =>
    cases again with
    | narrow =>
      have := positive form
      simp only [List.length_cons, List.length_nil, Bytes.length_bigEndian] at same
      omega
    | @wide minor' width' form' =>
      simp only [List.length_cons, Bytes.length_bigEndian, Nat.add_right_cancel_iff] at same
      subst same
      have minors : minor = minor' := by
        have := form_cases form
        have := form_cases form'
        omega
      rw [minors]

theorem length_shortest (major argument : Nat) : (shortest major argument).length =
    if argument < 24 then 1
    else if argument < 256 then 2
    else if argument < 65536 then 3
    else if argument < 4294967296 then 5
    else 9 := by
  have one : Bytes.capacity 1 = 256 := rfl
  have two : Bytes.capacity 2 = 65536 := rfl
  have four : Bytes.capacity 4 = 4294967296 := rfl
  simp only [shortest, one, two, four]
  split_ifs <;> simp [Bytes.length_bigEndian]

theorem minimal_shortest (argument_lt : argument < UInt64.size) :
    Minimal major argument (shortest major argument) where
  spells := spells_shortest argument_lt
  least := by
    intro other spelled
    rw [length_shortest]
    cases spelled with
    | narrow small =>
      rw [if_pos small]
      exact Nat.le_refl 1
    | @wide minor width form small =>
      rw [List.length_cons, Bytes.length_bigEndian]
      obtain ⟨_, rfl⟩ | ⟨_, rfl⟩ | ⟨_, rfl⟩ | ⟨_, rfl⟩ := form_cases form <;>
        simp only [Bytes.capacity] at small <;> split_ifs <;> omega

theorem minimal_iff : Minimal major argument bytes ↔
    argument < UInt64.size ∧ bytes = shortest major argument := by
  constructor
  · intro minimal
    have argument_lt := minimal.spells.argument_lt
    have written : Minimal major argument (shortest major argument) := minimal_shortest argument_lt
    have same : bytes.length = (shortest major argument).length :=
      Nat.le_antisymm (minimal.least _ written.spells) (written.least _ minimal.spells)
    exact ⟨argument_lt, minimal.spells.eq_of_length written.spells same⟩
  · rintro ⟨argument_lt, rfl⟩
    exact minimal_shortest argument_lt

end Cbor.Head

namespace Wire

open Cbor

/-- Shorter keys come first, and keys of one length in the order of their bytes. -/
def Field.Before (first second : Field) : Prop :=
  first.key.length < second.key.length ∨
    first.key.length = second.key.length ∧ first.key < second.key

instance (first second : Field) : Decidable (first.Before second) :=
  inferInstanceAs (Decidable (_ ∨ _ ∧ _))

/-- A list of numbers in its order, after their count. -/
def NumbersCanonical (numbers : List UInt64) (bytes : Bytes) : Prop :=
  ∃ head items, Head.Minimal 4 numbers.length head ∧
    List.Forall₂ (fun number => Head.Minimal 0 number.toNat) numbers items ∧
    bytes = head ++ items.flatten

namespace Entry

def ValueCanonical : Entry → Bytes → Prop
  | v number | rp number | wp number => Head.Minimal 0 number.toNat
  | ex numbers => NumbersCanonical numbers

def Canonical (entry : Entry) (bytes : Bytes) : Prop :=
  ∃ head value, Head.Minimal 3 entry.field.key.length head ∧ entry.ValueCanonical value ∧
    bytes = head ++ entry.field.key ++ value

end Entry

/-- The four entries in the order `v`, `ex`, `rp`, `wp`, after their count. -/
def Canonical (wire : Wire) (bytes : Bytes) : Prop :=
  ∃ head items, Head.Minimal 5 wire.entries.length head ∧
    List.Forall₂ Entry.Canonical wire.entries items ∧ bytes = head ++ items.flatten

theorem before_entries (wire : Wire) : (wire.entries.map (·.field)).Pairwise Field.Before := by
  change [Field.v, .ex, .rp, .wp].Pairwise Field.Before
  decide

theorem minimal_iff_writeUInt64 {number : UInt64} {bytes : Bytes} :
    Head.Minimal 0 number.toNat bytes ↔ writeUInt64 number = bytes := by
  rw [Head.minimal_iff, and_iff_right number.toNat_lt, writeUInt64, eq_comm]

theorem numbersCanonical_iff {numbers : List UInt64} {bytes : Bytes} :
    NumbersCanonical numbers bytes ↔
      numbers.length < UInt64.size ∧ writeNumbers numbers = bytes := by
  have same : (fun number : UInt64 => Head.Minimal 0 number.toNat) =
      fun number bytes => writeUInt64 number = bytes := by
    funext number bytes
    exact propext minimal_iff_writeUInt64
  have listed (items : List Bytes) :
      List.Forall₂ (fun number => Head.Minimal 0 number.toNat) numbers items ↔
        numbers.map writeUInt64 = items := by
    rw [same]
    exact List.forall₂_map_left_iff.symm.trans (by rw [List.forall₂_eq_eq_eq])
  rw [writeNumbers, List.flatMap_def]
  constructor
  · rintro ⟨head, items, counted, all, rfl⟩
    obtain ⟨short, rfl⟩ := Head.minimal_iff.1 counted
    obtain rfl := (listed items).1 all
    exact ⟨short, rfl⟩
  · rintro ⟨short, rfl⟩
    exact ⟨_, _, Head.minimal_shortest short, (listed _).2 rfl, rfl⟩

theorem Entry.canonical_iff {entry : Entry} {bytes : Bytes} : entry.Canonical bytes ↔
    ∃ value, entry.ValueCanonical value ∧ entry.field.write ++ value = bytes := by
  have short (field : Field) : field.key.length < UInt64.size := by cases field <;> decide
  constructor
  · rintro ⟨head, value, counted, canonical, rfl⟩
    obtain ⟨_, rfl⟩ := Head.minimal_iff.1 counted
    exact ⟨value, canonical, rfl⟩
  · rintro ⟨value, canonical, rfl⟩
    exact ⟨_, value, Head.minimal_shortest (short _), canonical, rfl⟩

theorem canonical_iff {wire : Wire} {bytes : Bytes} :
    wire.Canonical bytes ↔ wire.ex.length < UInt64.size ∧ wire.write = bytes := by
  constructor
  · rintro ⟨head, items, counted, all, rfl⟩
    obtain ⟨_, rfl⟩ := Head.minimal_iff.1 counted
    rcases all with _ | ⟨v, _ | ⟨ex, _ | ⟨rp, _ | ⟨wp, _ | _⟩⟩⟩⟩
    obtain ⟨_, version, rfl⟩ := Entry.canonical_iff.1 v
    obtain ⟨_, excluded, rfl⟩ := Entry.canonical_iff.1 ex
    obtain ⟨_, readPointer, rfl⟩ := Entry.canonical_iff.1 rp
    obtain ⟨_, writePointer, rfl⟩ := Entry.canonical_iff.1 wp
    obtain rfl := minimal_iff_writeUInt64.1 version
    obtain ⟨short, rfl⟩ := numbersCanonical_iff.1 excluded
    obtain rfl := minimal_iff_writeUInt64.1 readPointer
    obtain rfl := minimal_iff_writeUInt64.1 writePointer
    exact ⟨short, by simp [write, entries, Entry.field]⟩
  · rintro ⟨short, rfl⟩
    have number (value : UInt64) : Head.Minimal 0 value.toNat (writeUInt64 value) :=
      minimal_iff_writeUInt64.2 rfl
    have numbers : NumbersCanonical wire.ex (writeNumbers wire.ex) :=
      numbersCanonical_iff.2 ⟨short, rfl⟩
    refine ⟨_, _, Head.minimal_shortest (by decide : 4 < UInt64.size),
      .cons (Entry.canonical_iff.2 ⟨_, number _, rfl⟩)
        (.cons (Entry.canonical_iff.2 ⟨_, numbers, rfl⟩)
          (.cons (Entry.canonical_iff.2 ⟨_, number _, rfl⟩)
            (.cons (Entry.canonical_iff.2 ⟨_, number _, rfl⟩) .nil))), ?_⟩
    simp [write, entries, Entry.field]

end Wire

namespace Descriptor

variable {tx : Transaction}

theorem mem_ex_iff {number : UInt64} : number ∈ (wire tx).ex ↔ tx.excludes ⟨number⟩ := by
  have named : (described (wire tx)).excludes ⟨number⟩ ↔ number ∈ (wire tx).ex := excludes_described
  rw [described_wire] at named
  exact named.symm

theorem ascending_ex (tx : Transaction) : (wire tx).ex.Pairwise (· < ·) :=
  List.pairwise_map.2 ((SortedSet.ascending_toList tx.excluded).imp Version.compare_eq_lt.1)

/-- A transaction does not depend on the order or the repetitions of what it is told to exclude. -/
theorem new_of_same_members {members : List Version}
    (same : ∀ version, version ∈ members ↔ tx.excludes version) :
    Transaction.new tx.readPointer tx.writePointer members = tx := by
  have sets : SortedSet.ofMembers members = tx.excluded :=
    SortedSet.ext_contains fun version => by
      rw [Bool.eq_iff_iff, SortedSet.contains_ofMembers_iff]
      exact same version
  rw [Transaction.new, sets]

/-- The bytes of a valid transaction are the canonical form of its fields and no others, whichever
list its exclusions came from, and no other transaction has them. -/
theorem encoding_is_canonical (valid : tx.validate = .ok ()) : ∃ bytes fields,
    encode tx = .ok bytes ∧ (∀ other, Wire.Canonical fields other ↔ other = bytes) ∧
      (fields.entries.map (·.field)).Pairwise Wire.Field.Before ∧
      fields.v = 1 ∧ fields.rp = tx.readPointer.value ∧ fields.wp = tx.writePointer.value ∧
      fields.ex.Pairwise (· < ·) ∧ (∀ number, number ∈ fields.ex ↔ tx.excludes ⟨number⟩) ∧
      (∀ members : List Version, (∀ version, version ∈ members ↔ tx.excludes version) →
        encode (Transaction.new tx.readPointer tx.writePointer members) = .ok bytes) ∧
      ∀ other, encode other = .ok bytes → other = tx := by
  have written := encode_of_valid valid
  refine ⟨_, wire tx, written, fun other => ?_, Wire.before_entries _, rfl, rfl, rfl,
    ascending_ex tx, fun number => mem_ex_iff, fun members same => ?_, fun other again => ?_⟩
  · rw [Wire.canonical_iff, and_iff_right (length_ex_lt valid), eq_comm]
  · rw [new_of_same_members same]
    exact written
  · have read := decode_of_encode again
    rw [decode_write valid] at read
    exact (Except.ok.inj read).symm

/-- Numbers on both sides of each width, first in ascending order and then in another, repeated. -/
theorem encoding_is_canonical_at_width_boundaries :
    let tx := Transaction.new ⟨23⟩ ⟨0x100000000⟩
      [⟨24⟩, ⟨0xff⟩, ⟨0x100⟩, ⟨0xffff⟩, ⟨0x10000⟩, ⟨0xffffffff⟩, ⟨0x100000000⟩]
    let bytes : Bytes :=
      [0xa4, 0x61, 0x76, 0x01, 0x62, 0x65, 0x78, 0x87, 0x18, 0x18, 0x18, 0xff, 0x19, 0x01, 0x00,
        0x19, 0xff, 0xff, 0x1a, 0x00, 0x01, 0x00, 0x00, 0x1a, 0xff, 0xff, 0xff, 0xff,
        0x1b, 0x00, 0x00, 0x00, 0x01, 0x00, 0x00, 0x00, 0x00, 0x62, 0x72, 0x70, 0x17,
        0x62, 0x77, 0x70, 0x1b, 0x00, 0x00, 0x00, 0x01, 0x00, 0x00, 0x00, 0x00]
    tx.validate = .ok () ∧ encode tx = .ok bytes ∧
      encode (.new ⟨23⟩ ⟨0x100000000⟩ [⟨0xffff⟩, ⟨0x100000000⟩, ⟨24⟩, ⟨0x100⟩, ⟨24⟩, ⟨0xff⟩,
        ⟨0xffffffff⟩, ⟨0x10000⟩, ⟨0x100⟩]) = .ok bytes := by
  intro tx bytes
  have valid : tx.validate = .ok () := by decide
  have made : encode tx = .ok bytes := by decide +kernel
  obtain ⟨written, _, same, _, _, _, _, _, _, _, reordered, _⟩ := encoding_is_canonical valid
  obtain rfl : bytes = written := Except.ok.inj (made.symm.trans same)
  refine ⟨valid, made, reordered _ fun version => ?_⟩
  refine Iff.trans ?_ (SortedSet.contains_ofMembers_iff _ version).symm
  simp only [List.mem_cons, List.not_mem_nil, or_false]
  grind

end Descriptor

end SnapshotTable
