import Mathlib.Data.List.Sort
import SnapshotTable.Command.Descriptor
import SnapshotTable.Proofs.Canonical
import SnapshotTable.Proofs.Document

/-!
The commands on descriptors, one after the other. What the one prints is put into the other, and it
shows the transaction that the first one was given, with its exclusions in order.
-/

namespace SnapshotTable.Command

set_option autoImplicit false

/-- There is no such transaction: its write pointer asks for a version, or an exclusion is above. -/
def Invalid (writePointer : UInt64) (excluded : List UInt64) : Prop :=
  writePointer = 18446744073709551615 ∨ ∃ number ∈ excluded, writePointer < number

instance (writePointer : UInt64) (excluded : List UInt64) : Decidable (Invalid writePointer excluded) :=
  inferInstanceAs (Decidable (_ ∨ _))

/-- The numbers of a list in ascending order, each one once. -/
structure Orders (numbers members : List UInt64) : Prop where
  ascending : members.Pairwise (· < ·)
  mem_iff : ∀ number, number ∈ members ↔ number ∈ numbers

theorem Orders.unique {numbers first second : List UInt64} (orders : Orders numbers first)
    (orders' : Orders numbers second) : first = second := by
  have asymm : Std.Asymm fun first second : UInt64 => first < second :=
    ⟨fun _ _ => UInt64.lt_asymm⟩
  exact orders.ascending.eq_of_mem_iff orders'.ascending fun number =>
    (orders.mem_iff number).trans (orders'.mem_iff number).symm

/-- The command succeeds, and what it prints is read as the document. -/
structure Prints (outcome : Outcome) (document : Document) : Prop where
  succeeds : outcome.failure = none
  printed : Document.read? outcome.printed = some document

def listing : List UInt64 → String
  | [] => "none"
  | members => ", ".intercalate (members.map fun number => toString number.toNat)

def lines (readPointer writePointer : UInt64) (members : List UInt64) : String :=
  "Transaction:\n" ++
    "  Id: " ++ toString writePointer.toNat ++ "\n" ++
    "  Read pointer: " ++ toString readPointer.toNat ++ "\n" ++
    "  Write pointer: " ++ toString writePointer.toNat ++ "\n" ++
    "  Excluded: " ++ listing members ++ "\n"

/-- Either format shows the pointers and the members, under the write pointer as the id. -/
structure Shows (readPointer writePointer : UInt64) (members : List UInt64)
    (outcome : Format → Outcome) : Prop where
  text : outcome .text = { printed := lines readPointer writePointer members }
  json : Prints (outcome .json) <| .record [
    ("id", .number writePointer.toNat),
    ("read_pointer", .number readPointer.toNat),
    ("write_pointer", .number writePointer.toNat),
    ("excluded", .list (members.map fun number => .number number.toNat))]

variable {readPointer writePointer : UInt64} {excluded : List UInt64}

/-- The transaction that a command is told of. -/
def told (readPointer writePointer : UInt64) (excluded : List UInt64) : Transaction :=
  .new ⟨readPointer⟩ ⟨writePointer⟩ (excluded.map Version.mk)

theorem excludes_told {version : Version} :
    (told readPointer writePointer excluded).excludes version ↔ version.value ∈ excluded :=
  @Descriptor.excludes_described ⟨1, excluded, readPointer, writePointer⟩ version

theorem valid_told_iff :
    (told readPointer writePointer excluded).validate = .ok () ↔ ¬Invalid writePointer excluded := by
  have written : (told readPointer writePointer excluded).validate = .ok () ↔
      ∃ bytes, Descriptor.encode (told readPointer writePointer excluded) = .ok bytes :=
    ⟨fun valid => ⟨_, Descriptor.encode_of_valid valid⟩,
      fun ⟨_, written⟩ => Descriptor.valid_of_encode written⟩
  have ordinary : (told readPointer writePointer excluded).writePointer ≠ .latest ↔
      writePointer ≠ 18446744073709551615 := by
    rw [ne_eq, told, Transaction.new, Version.latest, Version.mk.injEq]
  rw [written, Descriptor.encodes_iff, ordinary, Invalid, not_or]
  refine and_congr_right fun _ => ?_
  simp only [not_exists, not_and, UInt64.not_lt, excludes_told]
  constructor
  · intro bounded number mem
    exact bounded ⟨number⟩ mem
  · intro bounded version mem
    exact bounded version.value mem

theorem printDescriptor_of_invalid (invalid : Invalid writePointer excluded) (format : Format) :
    ∃ message, printDescriptor readPointer writePointer excluded format = failed message := by
  rw [printDescriptor]
  cases written : Descriptor.encode (told readPointer writePointer excluded) with
  | error error =>
    rw [told] at written
    exact ⟨error.message, by rw [written]⟩
  | ok bytes => exact absurd invalid (valid_told_iff.1 (Descriptor.valid_of_encode written))

theorem listed_eq (tx : Transaction) : listed tx.excluded = listing (Descriptor.wire tx).ex := by
  change listed tx.excluded = listing (tx.excluded.toList.map (·.value))
  unfold listed
  cases SortedSet.toList tx.excluded with
  | nil => rfl
  | cons first others =>
    change ", ".intercalate ((first :: others).map Version.digits) = ", ".intercalate
      (((first :: others).map (·.value)).map fun number : UInt64 => toString number.toNat)
    rw [List.map_map]
    rfl

theorem numbers_eq (tx : Transaction) : numbers tx.excluded =
    .list ((Descriptor.wire tx).ex.map fun number => .number number.toNat) := by
  rw [numbers, Descriptor.wire, List.map_map]
  rfl

theorem transactionText_eq (tx : Transaction) : transactionText tx =
    lines tx.readPointer.value tx.writePointer.value (Descriptor.wire tx).ex := by
  unfold transactionText lines
  rw [listed_eq]
  unfold Transaction.id Version.digits Version.toNat
  rfl

theorem shows_of_valid {tx : Transaction} (valid : tx.validate = .ok ()) {input : String}
    (read : Hex.decode input = .ok (Descriptor.wire tx).write) :
    Shows tx.readPointer.value tx.writePointer.value (Descriptor.wire tx).ex
      (printTransaction input) := by
  have text : printTransaction input .text = { printed := transactionText tx } := by
    simp only [printTransaction, read, Descriptor.decode_write valid]
  have json : printTransaction input .json = { printed := (transactionDocument tx).print } := by
    simp only [printTransaction, read, Descriptor.decode_write valid]
  constructor
  case text =>
    rw [text, transactionText_eq]
  case json =>
    rw [json]
    refine ⟨rfl, ?_⟩
    rw [Document.read?_print, transactionDocument, numbers_eq]
    rfl

theorem printDescriptor_of_valid
    (valid : (told readPointer writePointer excluded).validate = .ok ()) :
    let tx := told readPointer writePointer excluded
    let bytes := (Descriptor.wire tx).write
    printDescriptor readPointer writePointer excluded .text =
        { printed := Hex.encode bytes ++ "\n" } ∧
      printDescriptor readPointer writePointer excluded .json =
        { printed := (descriptorDocument tx bytes).print } := by
  have written := Descriptor.encode_of_valid valid
  rw [told] at written
  constructor <;> simp only [printDescriptor, written, told]

theorem decode_encode_line (bytes : Bytes) : Hex.decode (Hex.encode bytes ++ "\n") = .ok bytes := by
  have blank : ∀ character ∈ ['\n'], Text.isBlank character :=
    List.forall_mem_singleton.2 (by decide)
  have line : Hex.encode bytes ++ "\n" = String.ofList ([] ++ (Hex.encode bytes).toList ++ ['\n']) := by
    rw [List.nil_append, String.ofList_append, String.ofList_toList]
  rw [line]
  exact Hex.decode_around (by simp) blank bytes

/-- What is invalid is refused with nothing printed. Otherwise the printed descriptor, as a line or as
the field of the document, makes the other command show the same pointers and the same exclusions. -/
theorem descriptor_commands_invert (readPointer writePointer : UInt64) (excluded : List UInt64) :
    let encoded := printDescriptor readPointer writePointer excluded
    (Invalid writePointer excluded →
      ∀ format, (encoded format).failure ≠ none ∧ (encoded format).printed = "") ∧
    (¬Invalid writePointer excluded → ∃ members digits length,
      Orders excluded members ∧ 2 * length = digits.length ∧
      encoded .text = { printed := digits ++ "\n" } ∧
      Prints (encoded .json) (.record [
        ("read_pointer", .number readPointer.toNat),
        ("write_pointer", .number writePointer.toNat),
        ("excluded", .list (members.map fun number => .number number.toNat)),
        ("descriptor", .text digits),
        ("length", .number length)]) ∧
      ∀ input ∈ [(encoded .text).printed, digits],
        Shows readPointer writePointer members (printTransaction input)) := by
  intro encoded
  constructor
  · intro invalid format
    obtain ⟨message, failure⟩ : ∃ message, encoded format = failed message :=
      printDescriptor_of_invalid invalid format
    rw [failure]
    exact ⟨Option.some_ne_none message, rfl⟩
  · intro ordinary
    let tx := told readPointer writePointer excluded
    have valid : tx.validate = .ok () := valid_told_iff.2 ordinary
    obtain ⟨text, json⟩ : encoded .text = _ ∧ encoded .json = _ := printDescriptor_of_valid valid
    refine ⟨(Descriptor.wire tx).ex, Hex.encode (Descriptor.wire tx).write,
      (Descriptor.wire tx).write.length, ⟨Descriptor.ascending_ex tx, fun number => ?_⟩, ?_, text,
      ⟨?_, ?_⟩, ?_⟩
    · rw [Descriptor.mem_ex_iff, excludes_told]
    · rw [← String.length_toList, (Hex.spells_encode _).length_eq]
    · rw [json]
    · rw [json, Document.read?_print, descriptorDocument, numbers_eq]
      rfl
    · rw [text]
      refine List.forall_mem_cons.2 ⟨?_, List.forall_mem_singleton.2 ?_⟩
      · exact shows_of_valid valid (decode_encode_line _)
      · exact shows_of_valid valid (Hex.decode_encode _)

/-- The exclusions of 23 and 300 in any order and repeated; they are too high for 299. -/
theorem descriptor_commands_invert_past_repeats :
    printDescriptor 23 300 [300, 7, 7] .text =
        { printed := "a4617601626578820719012c6272701762777019012c\n" } ∧
      Shows 23 300 [7, 300]
        (printTransaction "a4617601626578820719012c6272701762777019012c\n") ∧
      (printDescriptor 23 299 [300, 7, 7] .json).printed = "" := by
  have text : printDescriptor 23 300 [300, 7, 7] .text =
      { printed := "a4617601626578820719012c6272701762777019012c\n" } := by decide +kernel
  obtain ⟨members, digits, _, orders, _, _, _, shown⟩ :=
    (descriptor_commands_invert 23 300 [300, 7, 7]).2 (by decide)
  have ordered : Orders [300, 7, 7] [7, 300] := by
    refine ⟨by decide, fun number => ?_⟩
    simp only [List.mem_cons, List.not_mem_nil, or_false, or_self]
    exact or_comm
  obtain rfl := orders.unique ordered
  have decoded := shown _ List.mem_cons_self
  rw [text] at decoded
  exact ⟨text, decoded, ((descriptor_commands_invert 23 299 [300, 7, 7]).1 (by decide) .json).2⟩

end SnapshotTable.Command
