import SnapshotTable.Proofs.Descriptor

/-!
Readers and longer inputs. What a reader takes from an input it takes from every longer input, and
it leaves the longer rest. So the bytes of a descriptor say themselves where they end: no part of
them is read before the last one is there, and what follows them is left.
-/

namespace SnapshotTable

set_option autoImplicit false

namespace Cbor

open Reader

variable {α β γ : Type}

namespace Reader

/-- What the narrower reader takes from an input, the wider takes from every longer input. -/
def Extends (wider narrower : Reader α) : Prop :=
  ∀ ⦃input rest : Bytes⦄ ⦃value : α⦄, narrower input = .ok (value, rest) →
    ∀ more, wider (input ++ more) = .ok (value, rest ++ more)

abbrev Steady (reader : Reader α) : Prop := Extends reader reader

theorem bind_eq_ok {reader : Reader α} {next : α → Reader β} {input rest : Bytes} {value : β}
    (read : (reader >>= next) input = .ok (value, rest)) : ∃ found middle,
      reader input = .ok (found, middle) ∧ next found middle = .ok (value, rest) := by
  change (reader input).bind _ = _ at read
  cases first : reader input with
  | error error =>
    rw [first] at read
    cases read
  | ok found =>
    rw [first] at read
    exact ⟨found.1, found.2, rfl, read⟩

theorem steady_pure (value : α) : Steady (pure value) := by
  intro input rest found read more
  cases read
  rfl

theorem extends_throw (wider : Reader α) (error : ReadError) : Extends wider (throw error) := by
  intro input rest found read
  cases read

theorem Extends.bind {wider narrower : Reader α} {next following : α → Reader β}
    (first : Extends wider narrower) (later : ∀ value, Extends (next value) (following value)) :
    Extends (wider >>= next) (narrower >>= following) := by
  intro input rest value read more
  obtain ⟨found, middle, here, there⟩ := bind_eq_ok read
  rw [bind_of_ok (first here more)]
  exact later found there more

theorem Extends.map {wider narrower : Reader α} (first : Extends wider narrower) (change : α → β) :
    Extends (change <$> wider) (change <$> narrower) :=
  first.bind fun value => steady_pure (change value)

theorem Extends.look {first : Reader α} {next following : Bytes → α → Reader β}
    (steady : Steady first)
    (later : ∀ {here after rest : Bytes} {found value}, following here found after = .ok (value, rest) →
      ∀ more, next (here ++ more) found (after ++ more) = .ok (value, rest ++ more)) :
    Extends (do let here ← get; let found ← first; next here found)
      (do let here ← get; let found ← first; following here found) := by
  intro input rest value read more
  have fromHere : (first >>= following input) input = .ok (value, rest) := read
  obtain ⟨found, middle, here, there⟩ := bind_eq_ok fromHere
  change (first >>= next (input ++ more)) (input ++ more) = _
  rw [bind_of_ok (steady here more)]
  exact later there more

theorem steady_take (count : Nat) : Steady (take count) := by
  intro input rest value read more
  simp only [take] at read ⊢
  split at read
  · rename_i enough
    cases read
    have inside : count ≤ input.length := by
      rw [List.length_take] at enough
      omega
    rw [List.take_append_of_le_length inside, List.drop_append_of_le_length inside, if_pos enough]
  · cases read

theorem steady_byte : Steady byte := by
  intro input rest value read more
  cases input with
  | nil => cases read
  | cons first others =>
    cases read
    rfl

theorem steady_number (width : Nat) : Steady (number width) :=
  (steady_take width).bind fun _ => steady_pure _

theorem steady_bounded {reader : Nat → Reader α}
    (grows : ∀ {steps larger}, steps ≤ larger → Extends (reader larger) (reader steps)) :
    Steady (bounded reader) := by
  intro input rest value read more
  have longer : input.length + 1 ≤ (input ++ more).length + 1 := by
    rw [List.length_append]
    omega
  exact grows longer read more

end Reader

namespace Head

theorem steady_readArgument (minor : Nat) : Steady (readArgument minor) := by
  rw [readArgument]
  split_ifs
  · exact steady_pure _
  · exact (steady_number 1).map _
  · exact (steady_number 2).map _
  · exact (steady_number 4).map _
  · exact (steady_number 8).map _
  · exact steady_pure _
  · exact extends_throw _ _

theorem steady_ofParts (major minor : Nat) (argument : Option Nat) :
    Steady (ofParts major minor argument) := by
  unfold ofParts
  split <;> first | exact steady_pure _ | exact extends_throw _ _

theorem steady_read : Steady read :=
  steady_byte.bind fun _ => (steady_readArgument _).bind fun _ => steady_ofParts _ _ _

end Head

theorem steady_repeated {step : β → Reader β} (steady : ∀ state, Steady (step state))
    (count : Nat) (state : β) : Steady (repeated step count state) := by
  induction count generalizing state with
  | zero => exact steady_pure state
  | succ count ih => exact (steady state).bind fun next => ih next

theorem extends_untilStop {step : β → Reader β} (steady : ∀ state, Steady (step state))
    {steps larger : Nat} (le : steps ≤ larger) (state : β) :
    Extends (untilStop step larger state) (untilStop step steps state) := by
  induction steps generalizing larger state with
  | zero => exact extends_throw _ _
  | succ steps ih =>
    obtain ⟨extra, rfl⟩ := Nat.exists_eq_add_of_lt le
    refine Extends.look Head.steady_read ?_
    intro here after rest head value read more
    split at read
    · exact steady_pure state read more
    · have next : Extends (step state >>= untilStop step (steps + extra))
          (step state >>= untilStop step steps) :=
        (steady state).bind fun next => ih (Nat.le_add_right _ _) next
      exact next read more

theorem steady_elements {step : β → Reader β} (steady : ∀ state, Steady (step state))
    (length : Option Nat) (state : β) : Steady (elements length step state) := by
  cases length with
  | some count => exact steady_repeated steady count state
  | none => exact steady_bounded fun le => extends_untilStop steady le state

theorem steady_headPastTags : Steady headPastTags := by
  refine steady_bounded fun {steps larger} le => ?_
  induction steps generalizing larger with
  | zero => exact extends_throw _ _
  | succ steps ih =>
    obtain ⟨extra, rfl⟩ := Nat.exists_eq_add_of_lt le
    refine Head.steady_read.bind fun head => ?_
    split
    · exact ih (Nat.le_add_right _ _)
    · exact steady_pure _

theorem extends_pieces {kind : StringKind} {piece : Nat → β → Reader β}
    (steady : ∀ count state, Steady (piece count state)) {steps larger : Nat} (le : steps ≤ larger)
    (levels : Nat) (state : β) :
    Extends (pieces.loop kind piece larger levels state) (pieces.loop kind piece steps levels state) := by
  induction steps generalizing larger levels state with
  | zero => exact extends_throw _ _
  | succ steps ih =>
    obtain ⟨extra, rfl⟩ := Nat.exists_eq_add_of_lt le
    refine Head.steady_read.bind fun head => ?_
    split
    · split_ifs
      · exact steady_pure state
      · exact ih (Nat.le_add_right _ _) _ state
    · split
      · exact (steady _ state).bind fun next => ih (Nat.le_add_right _ _) levels next
      · exact ih (Nat.le_add_right _ _) _ state
      · exact extends_throw _ _

theorem steady_pieces (kind : StringKind) (length : Option Nat) {piece : Nat → β → Reader β}
    (steady : ∀ count state, Steady (piece count state)) (state : β) :
    Steady (pieces kind length piece state) := by
  cases length with
  | some count => exact steady count state
  | none => exact steady_bounded fun le => extends_pieces steady le 0 state

theorem steady_byteString (length : Option Nat) : Steady (byteString length) :=
  steady_pieces .bytes length (fun count _ => (steady_take count).bind fun _ => steady_pure _) []

theorem steady_skipCharacters (length : Nat) : Steady (skipCharacters length) := by
  refine steady_bounded fun {steps larger} le => ?_
  generalize ([] : Bytes) = held
  induction steps generalizing larger length held with
  | zero => exact extends_throw _ _
  | succ steps ih =>
    obtain ⟨extra, rfl⟩ := Nat.exists_eq_add_of_lt le
    rw [skipCharacters.loop, skipCharacters.loop]
    split_ifs
    · exact steady_pure ()
    · exact extends_throw _ _
    · refine (steady_take _).bind fun fresh => ?_
      split
      · exact ih _ (Nat.le_add_right _ _) _
      · exact extends_throw _ _

theorem steady_skipText (length : Option Nat) : Steady (skipText length) :=
  steady_pieces .text length (fun count _ => steady_skipCharacters count) ()

theorem steady_addDigits (digits chunk : Bytes) : Steady (addDigits digits chunk) := by
  rw [addDigits]
  induction chunk generalizing digits with
  | nil => exact steady_pure digits
  | cons byte rest ih =>
    rw [List.foldlM_cons]
    refine Extends.bind ?_ ih
    split_ifs
    · exact extends_throw _ _
    · exact steady_pure _
    · exact steady_pure _

theorem steady_magnitude (length : Option Nat) : Steady (magnitude length) := by
  refine steady_pieces .bytes length (fun count digits => ?_) []
  refine (steady_repeated (fun digits => ?_) _ digits).bind fun digits =>
    (steady_take _).bind fun chunk => steady_addDigits digits chunk
  exact (steady_take 16).bind fun chunk => steady_addDigits digits chunk

theorem steady_uint64 : Steady uint64 := by
  have digits : Steady uint64.digits := Head.steady_read.bind fun head => by
    split
    · exact steady_magnitude _
    · exact extends_throw _ _
  have small (value : Nat) : Steady (if value < UInt64.size then pure (UInt64.ofNat value)
      else throw .mismatched : Reader UInt64) := by
    split_ifs
    · exact steady_pure _
    · exact extends_throw _ _
  refine steady_bounded fun {steps larger} le => ?_
  induction steps generalizing larger with
  | zero => exact extends_throw _ _
  | succ steps ih =>
    obtain ⟨extra, rfl⟩ := Nat.exists_eq_add_of_lt le
    refine Head.steady_read.bind fun head => ?_
    split
    · exact steady_pure _
    · exact digits.bind fun found => small found.toNat
    · exact digits.bind fun _ => extends_throw _ _
    · exact ih (Nat.le_add_right _ _)
    · exact extends_throw _ _

theorem steady_nested {inner : Option (Reader Unit)} (steady : ∀ item ∈ inner, Steady item)
    {next : Reader Unit → Reader β} (later : ∀ item, Steady item → Steady (next item)) :
    Steady (skipWith.nested inner >>= next) := by
  cases inner with
  | none => exact extends_throw _ _
  | some item => exact later item (steady item rfl)

theorem enter_append {inner : Option (Reader Unit)} (steady : ∀ item ∈ inner, Steady item)
    {here after rest : Bytes} (read : skipWith.enter inner here after = .ok ((), rest))
    (more : Bytes) : skipWith.enter inner (here ++ more) (after ++ more) = .ok ((), rest ++ more) := by
  cases inner with
  | none => cases read
  | some item => exact steady item rfl read more

theorem steady_skipWith {inner : Option (Reader Unit)} (steady : ∀ item ∈ inner, Steady item) :
    Steady (skipWith inner) := by
  have inRange (digits : Bytes) : Steady (if digits.toNat < Bytes.capacity 16 / 2 then pure ()
      else throw .mismatched : Reader Unit) := by
    split_ifs
    · exact steady_pure ()
    · exact extends_throw _ _
  refine Head.steady_read.bind fun head => ?_
  split
  · exact steady_pure ()
  · exact steady_pure ()
  · exact steady_pure ()
  · exact (steady_byteString _).map _
  · exact steady_skipText _
  · exact steady_nested steady fun item steady => steady_elements (fun _ => steady) _ ()
  · exact steady_nested steady fun item steady =>
      steady_elements (fun _ => steady.bind fun _ => steady) _ ()
  -- a tag: a short big number is taken from behind the head looked at, all else from before it
  · refine Extends.look Head.steady_read ?_
    intro here after rest head _ read more
    split at read
    · split_ifs at read ⊢
      · exact (steady_take _).map _ read more
      · exact enter_append steady read more
    · split_ifs at read ⊢
      · exact (steady_take _).bind (fun digits => inRange digits) read more
      · exact enter_append steady read more
    · exact enter_append steady read more
  · split_ifs
    · exact steady_pure ()
    · exact extends_throw _ _
  · exact extends_throw _ _

theorem steady_skip (depth : Nat) : Steady (skip depth) := by
  induction depth with
  | zero => exact steady_skipWith nofun
  | succ depth ih => exact steady_skipWith fun item held => Option.some.inj held ▸ ih

end Cbor

namespace Wire

open Cbor Reader

theorem Field.steady_read : Steady Field.read := by
  refine steady_headPastTags.bind fun head => ?_
  split
  · split_ifs
    · refine (steady_take _).bind fun key => ?_
      split
      · exact steady_pure _
      · split_ifs
        · exact steady_pure none
        · exact extends_throw _ _
    · exact extends_throw _ _
  · split_ifs
    · exact (steady_take _).bind fun _ => steady_pure _
    · exact extends_throw _ _
  · exact extends_throw _ _

theorem steady_readNumbers : Steady readNumbers := by
  refine steady_headPastTags.bind fun head => ?_
  split
  · refine (steady_elements (fun known => ?_) _ []).bind fun _ => steady_pure _
    exact steady_uint64.bind fun _ => steady_pure _
  · exact (steady_byteString _).bind fun _ => steady_pure _
  · exact extends_throw _ _

theorem steady_readOnce {α : Type} (known : Option α) {value : Reader α} (steady : Steady value) :
    Steady (readOnce known value) := by
  cases known with
  | some _ => exact extends_throw _ _
  | none => exact steady.map some

theorem steady_readEntry (draft : Draft) : Steady (readEntry draft) := by
  refine Field.steady_read.bind fun field => ?_
  split
  · exact (steady_readOnce _ steady_uint64).bind fun _ => steady_pure _
  · exact (steady_readOnce _ steady_readNumbers).bind fun _ => steady_pure _
  · exact (steady_readOnce _ steady_uint64).bind fun _ => steady_pure _
  · exact (steady_readOnce _ steady_uint64).bind fun _ => steady_pure _
  · exact (steady_skip _).bind fun _ => steady_pure draft

theorem steady_read : Steady read := by
  refine steady_headPastTags.bind fun head => ?_
  split
  · refine (steady_elements steady_readEntry _ {}).bind fun draft => ?_
    split
    · exact steady_pure _
    · exact extends_throw _ _
  · exact extends_throw _ _

/-- Of fields that end with the input nothing is read before the last byte. -/
theorem read_strict_prefix {bytes start : Bytes} {wire : Wire}
    (complete : read bytes = .ok (wire, [])) (first : start <+: bytes) (strict : start ≠ bytes) :
    ∃ error, read start = .error error := by
  cases early : read start with
  | error error => exact ⟨error, rfl⟩
  | ok found =>
    obtain ⟨more, rfl⟩ := first
    have whole := steady_read early more
    rw [complete] at whole
    have none : found.2 ++ more = [] := (congrArg Prod.snd (Except.ok.inj whole)).symm
    have same : more = [] := (List.append_eq_nil_iff.1 none).2
    exact absurd (by rw [same, List.append_nil]) strict

end Wire

namespace Descriptor

theorem read_write {tx : Transaction} (valid : tx.validate = .ok ()) (rest : Bytes) :
    Wire.read ((wire tx).write ++ rest) = .ok (wire tx, rest) :=
  Wire.read_spells (Wire.spells_write (length_ex_lt valid)) rest

theorem decode_of_trailing {bytes rest : Bytes} {fields : Wire}
    (read : Wire.read bytes = .ok (fields, rest)) (trailing : rest ≠ []) :
    decode bytes = .error (.trailing rest.length) := by
  have left : rest.isEmpty = false := by simpa using trailing
  simp only [decode, read, left, Bool.false_eq_true, if_false]

/-- The bytes of a valid transaction end where its descriptor ends: a part from the beginning does
not decode, further bytes are counted as trailing, and no other transaction goes on from there. -/
theorem descriptors_delimit_themselves {tx : Transaction} (valid : tx.validate = .ok ()) :
    ∃ bytes, encode tx = .ok bytes ∧
      (∀ start, start <+: bytes → start ≠ bytes →
        ∃ reason, decode start = .error (.decodingFailed reason)) ∧
      (∀ rest, rest ≠ [] → decode (bytes ++ rest) =
        .error (.decodingFailed (toString rest.length ++ " trailing bytes after descriptor"))) ∧
      ∀ other longer, encode other = .ok longer → bytes <+: longer → other = tx := by
  have complete := read_write valid []
  rw [List.append_nil] at complete
  have trailing : ∀ rest, rest ≠ [] →
      decode ((wire tx).write ++ rest) = .error (.trailing rest.length) :=
    fun rest => decode_of_trailing (read_write valid rest)
  refine ⟨_, encode_of_valid valid, fun start first strict => ?_, trailing, ?_⟩
  · obtain ⟨error, failed⟩ := Wire.read_strict_prefix complete first strict
    exact ⟨error.label, by rw [decode, failed]⟩
  · rintro other longer written ⟨rest, rfl⟩
    have own := decode_of_encode written
    cases rest with
    | nil =>
      rw [List.append_nil, decode_write valid] at own
      exact (Except.ok.inj own).symm
    | cons first others =>
      rw [trailing _ (List.cons_ne_nil first others)] at own
      cases own

/-- A descriptor cut inside the head of its last number, and one with another after it. -/
theorem descriptors_delimit_themselves_cut_in_head :
    let tx := Transaction.new ⟨300⟩ ⟨0x10000⟩ [⟨24⟩, ⟨0x100⟩]
    let bytes : Bytes := [0xa4, 0x61, 0x76, 0x01, 0x62, 0x65, 0x78, 0x82, 0x18, 0x18, 0x19, 0x01, 0x00,
      0x62, 0x72, 0x70, 0x19, 0x01, 0x2c, 0x62, 0x77, 0x70, 0x1a, 0x00, 0x01, 0x00, 0x00]
    tx.validate = .ok () ∧ encode tx = .ok bytes ∧
      (∃ reason, decode (bytes.take 25) = .error (.decodingFailed reason)) ∧
      decode (bytes ++ bytes) = .error (.decodingFailed "27 trailing bytes after descriptor") := by
  intro tx bytes
  have valid : tx.validate = .ok () := by decide
  have made : encode tx = .ok bytes := by decide +kernel
  obtain ⟨written, same, cut, continued, _⟩ := descriptors_delimit_themselves valid
  obtain rfl : bytes = written := Except.ok.inj (made.symm.trans same)
  have counted : toString bytes.length ++ " trailing bytes after descriptor" =
      "27 trailing bytes after descriptor" := by decide +kernel
  have doubled := continued bytes (List.cons_ne_nil _ _)
  rw [counted] at doubled
  exact ⟨valid, made, cut _ (List.take_prefix 25 bytes) (by decide), doubled⟩

end Descriptor

end SnapshotTable
