import Mathlib.Data.List.Induction
import Mathlib.Data.List.TakeWhile
import SnapshotTable.Text.Hex

/-!
Hexadecimal text and the bytes that it stands for. What is read of a text is left when white space and
one `0x` are taken away, and it gets one answer: its length is odd, it has a first bad digit, or it
spells bytes. The length is counted in UTF-8 bytes and the digits are paired as characters, but a digit
that is not there is never asked for.
-/

namespace SnapshotTable

set_option autoImplicit false

namespace Text

/-- White space stands around the core, and the core neither begins nor ends with any. -/
structure Trims (text core : List Char) : Prop where
  around : ∃ before after, text = before ++ core ++ after ∧
    (∀ character ∈ before, isBlank character) ∧ ∀ character ∈ after, isBlank character
  front : ∀ character ∈ core.head?, ¬isBlank character
  back : ∀ character ∈ core.getLast?, ¬isBlank character

theorem dropWhile_isBlank_of_front {characters : List Char}
    (front : ∀ character ∈ characters.head?, ¬isBlank character) :
    characters.dropWhile isBlank = characters := by
  cases characters with
  | nil => rfl
  | cons first rest => exact List.dropWhile_cons_of_neg (front first rfl)

theorem front_dropWhile_isBlank (characters : List Char) :
    ∀ character ∈ (characters.dropWhile isBlank).head?, ¬isBlank character := by
  intro character first
  have kept := List.head?_dropWhile_not isBlank characters
  rw [Option.mem_def.1 first] at kept
  simpa using kept

theorem trims_trim (text : List Char) : Trims text (trim text) := by
  have cut : text.takeWhile isBlank ++ text.dropWhile isBlank = text :=
    List.takeWhile_append_dropWhile
  have front := front_dropWhile_isBlank text
  have back := front_dropWhile_isBlank (text.dropWhile isBlank).reverse
  unfold trim
  generalize text.dropWhile isBlank = started at cut front back ⊢
  have whole : (started.reverse.dropWhile isBlank).reverse ++
      (started.reverse.takeWhile isBlank).reverse = started := by
    rw [← List.reverse_append, List.takeWhile_append_dropWhile, List.reverse_reverse]
  constructor
  case around =>
    refine ⟨text.takeWhile isBlank, (started.reverse.takeWhile isBlank).reverse, ?_,
      fun character mem => List.mem_takeWhile_imp mem, fun character mem => ?_⟩
    · rw [List.append_assoc, whole, cut]
    · exact List.mem_takeWhile_imp (List.mem_reverse.1 mem)
  case front =>
    -- what is left after the cut at the end is a beginning of what was there before it
    intro character first
    apply front
    rw [← whole, List.head?_append, Option.mem_def.1 first]
    rfl
  case back =>
    intro character last
    rw [List.getLast?_reverse] at last
    exact back character last

theorem trim_eq_of_trims {text core : List Char} (trims : Trims text core) : trim text = core := by
  obtain ⟨⟨before, after, rfl, blank, blank'⟩, front, back⟩ := trims
  have started : (before ++ core ++ after).dropWhile isBlank = (core ++ after).dropWhile isBlank := by
    rw [List.append_assoc, List.dropWhile_append_of_pos blank]
  rw [trim, started]
  cases core with
  | nil =>
    rw [List.nil_append, List.dropWhile_eq_nil_iff.2 blank']
    rfl
  | cons first rest =>
    have here : ∀ character ∈ (first :: rest ++ after).head?, ¬isBlank character := front
    have there : ∀ character ∈ (first :: rest).reverse.head?, ¬isBlank character := by
      rw [List.head?_reverse]
      exact back
    rw [dropWhile_isBlank_of_front here, List.reverse_append,
      List.dropWhile_append_of_pos fun character mem => blank' character (List.mem_reverse.1 mem),
      dropWhile_isBlank_of_front there, List.reverse_reverse]

theorem trims_iff {text core : List Char} : Trims text core ↔ trim text = core := by
  constructor
  · exact trim_eq_of_trims
  · rintro rfl
    exact trims_trim text

end Text

namespace Hex

open Text

/-- What is left of a text is its core, without one `0x` in front of it. -/
inductive Leaves (text : String) : List Char → Prop
  | marked {rest : List Char} : Trims text.toList ('0' :: 'x' :: rest) → Leaves text rest
  | unmarked {core : List Char} : Trims text.toList core → ¬['0', 'x'] <+: core → Leaves text core

theorem leaves_iff {text : String} {rest : List Char} : Leaves text rest ↔ payload text = rest := by
  constructor
  · intro left
    unfold payload
    cases left with
    | marked trims => simp only [trims_iff.1 trims]
    | unmarked trims bare =>
      rw [trims_iff.1 trims]
      split
      · rename_i others
        exact absurd (List.prefix_append ['0', 'x'] others) bare
      · rfl
  · rintro rfl
    have trims : Trims text.toList (trim text.toList) := trims_iff.2 rfl
    unfold payload
    split
    · rename_i core
      exact .marked (core ▸ trims)
    · rename_i bare
      refine .unmarked trims ?_
      rintro ⟨rest, same⟩
      exact bare rest same.symm

/-- The character stands for a value below sixteen, in lower case or in upper case. -/
def Digit (character : Char) (value : Nat) : Prop :=
  value < 16 ∧ (character = Nat.digitChar value ∨ character = (Nat.digitChar value).toUpper)

instance (character : Char) (value : Nat) : Decidable (Digit character value) :=
  inferInstanceAs (Decidable (_ ∧ (_ ∨ _)))

def IsDigit (character : Char) : Prop := ∃ value, Digit character value

theorem exists_code {character : Char} {value : Nat} (read : digit? character = some value) :
    ∃ code < 128, Char.ofNat code = character := by
  refine ⟨character.toNat, ?_, Char.ofNat_toNat character⟩
  simp only [digit?, Char.le_def, UInt32.le_iff_toNat_le] at read
  have code : character.toNat = character.val.toNat := rfl
  have nine : ('9').val.toNat = 57 := rfl
  have little : ('f').val.toNat = 102 := rfl
  have great : ('F').val.toNat = 70 := rfl
  split at read
  · omega
  · split at read
    · omega
    · split at read
      · omega
      · cases read

theorem digit?_eq_some_iff {character : Char} {value : Nat} :
    digit? character = some value ↔ Digit character value := by
  constructor
  · intro read
    obtain ⟨code, small, rfl⟩ := exists_code read
    have all : ∀ code < 128, ∀ value ∈ digit? (Char.ofNat code), Digit (Char.ofNat code) value := by
      decide
    exact all code small value read
  · rintro ⟨small, written⟩
    have all : ∀ value < 16, digit? (Nat.digitChar value) = some value ∧
        digit? (Nat.digitChar value).toUpper = some value := by decide
    rcases written with rfl | rfl
    · exact (all value small).1
    · exact (all value small).2

theorem digit_of_digit {character : Char} {value : Nat} (stands : Digit character value)
    (position : Nat) : digit character position = .ok value := by
  rw [digit, digit?_eq_some_iff.2 stands]

theorem digit_of_not_isDigit {character : Char} (bad : ¬IsDigit character) (position : Nat) :
    digit character position = .error (.invalidDigit character position) := by
  rw [digit]
  cases read : digit? character with
  | none => rfl
  | some value => exact absurd ⟨value, digit?_eq_some_iff.1 read⟩ bad

theorem IsDigit.plain {character : Char} (isDigit : IsDigit character) :
    ¬isBlank character ∧ character ≠ 'x' ∧ character.utf8Size = 1 := by
  obtain ⟨value, small, rfl | rfl⟩ := isDigit
  · have all : ∀ value < 16, ¬isBlank (Nat.digitChar value) ∧ Nat.digitChar value ≠ 'x' ∧
        (Nat.digitChar value).utf8Size = 1 := by decide
    exact all value small
  · have all : ∀ value < 16, ¬isBlank (Nat.digitChar value).toUpper ∧
        (Nat.digitChar value).toUpper ≠ 'x' ∧ (Nat.digitChar value).toUpper.utf8Size = 1 := by decide
    exact all value small

/-- Two digits a byte, its upper half first. -/
inductive Spells : Bytes → List Char → Prop
  | nil : Spells [] []
  | cons {byte : UInt8} {bytes : Bytes} {high low : Char} {rest : List Char} :
    Digit high (byte.toNat / 16) → Digit low (byte.toNat % 16) → Spells bytes rest →
      Spells (byte :: bytes) (high :: low :: rest)

theorem Spells.isDigit {bytes : Bytes} {characters : List Char} (spelled : Spells bytes characters) :
    ∀ character ∈ characters, IsDigit character := by
  induction spelled with
  | nil => simp
  | cons high low _ ih =>
    exact List.forall_mem_cons.2 ⟨⟨_, high⟩, List.forall_mem_cons.2 ⟨⟨_, low⟩, ih⟩⟩

theorem Spells.length_eq {bytes : Bytes} {characters : List Char}
    (spelled : Spells bytes characters) : characters.length = 2 * bytes.length := by
  induction spelled with
  | nil => rfl
  | cons _ _ _ ih =>
    rw [List.length_cons, List.length_cons, List.length_cons, ih]
    omega

theorem halves_of_digits {high low : Nat} (small : high < 16) (small' : low < 16) :
    (UInt8.ofNat (16 * high + low)).toNat / 16 = high ∧
      (UInt8.ofNat (16 * high + low)).toNat % 16 = low := by
  rw [UInt8.toNat_ofNat']
  omega

theorem byte_of_halves (byte : UInt8) :
    UInt8.ofNat (16 * (byte.toNat / 16) + byte.toNat % 16) = byte := by
  rw [Nat.div_add_mod, UInt8.ofNat_toNat]

/-- Characters spell bytes, or have a first one that is no digit, or are digits in odd number. -/
theorem characters_cases (characters : List Char) :
    (∃ bytes, Spells bytes characters) ∨
      (∃ before bad after, characters = before ++ bad :: after ∧
        (∀ character ∈ before, IsDigit character) ∧ ¬IsDigit bad) ∨
      (characters.length % 2 = 1 ∧ ∀ character ∈ characters, IsDigit character) := by
  induction characters using List.twoStepInduction with
  | nil => exact .inl ⟨[], .nil⟩
  | singleton last =>
    by_cases good : IsDigit last
    · exact .inr (.inr ⟨rfl, List.forall_mem_singleton.2 good⟩)
    · exact .inr (.inl ⟨[], last, [], rfl, by simp, good⟩)
  | cons_cons first second rest ih =>
    by_cases good : IsDigit first
    · by_cases good' : IsDigit second
      · rcases ih with ⟨bytes, spelled⟩ | ⟨before, bad, after, rfl, digits, no⟩ | ⟨odd, digits⟩
        · obtain ⟨high, stands⟩ := good
          obtain ⟨low, stands'⟩ := good'
          obtain ⟨upper, lower⟩ := halves_of_digits stands.1 stands'.1
          exact .inl ⟨_, .cons (upper.symm ▸ stands) (lower.symm ▸ stands') spelled⟩
        · exact .inr (.inl ⟨first :: second :: before, bad, after, rfl,
            List.forall_mem_cons.2 ⟨good, List.forall_mem_cons.2 ⟨good', digits⟩⟩, no⟩)
        · refine .inr (.inr ⟨?_, List.forall_mem_cons.2 ⟨good, List.forall_mem_cons.2 ⟨good', digits⟩⟩⟩)
          rw [List.length_cons, List.length_cons]
          omega
      · exact .inr (.inl ⟨[first], second, rest, rfl, List.forall_mem_singleton.2 good, good'⟩)
    · exact .inr (.inl ⟨[], first, second :: rest, rfl, by simp, good⟩)

theorem readPairs_of_digits {first second : Char} {high low : Nat} (stands : Digit first high)
    (stands' : Digit second low) (position : Nat) (rest : List Char) :
    readPairs position (first :: second :: rest) =
      (readPairs (position + 2) rest).map (UInt8.ofNat (16 * high + low) :: ·) := by
  rw [readPairs, digit_of_digit stands, digit_of_digit stands']
  cases readPairs (position + 2) rest <;> rfl

theorem readPairs_of_bad {before : List Char} {bad : Char}
    (digits : ∀ character ∈ before, IsDigit character) (no : ¬IsDigit bad) (after : List Char)
    (position : Nat) : readPairs position (before ++ bad :: after) =
      .error (.invalidDigit bad (position + before.length)) := by
  induction before using List.twoStepInduction generalizing position with
  | nil =>
    cases after <;>
      simp only [List.nil_append, readPairs, digit_of_not_isDigit no] <;> rfl
  | singleton first =>
    obtain ⟨value, stands⟩ := digits first (List.mem_singleton_self first)
    simp only [List.cons_append, List.nil_append, readPairs, digit_of_digit stands,
      digit_of_not_isDigit no]
    rfl
  | cons_cons first second rest ih =>
    obtain ⟨⟨high, stands⟩, others⟩ := List.forall_mem_cons.1 digits
    obtain ⟨⟨low, stands'⟩, others⟩ := List.forall_mem_cons.1 others
    have moved : position + 2 + rest.length = position + (rest.length + 1 + 1) := by omega
    rw [List.cons_append, List.cons_append, readPairs_of_digits stands stands', ih others,
      List.length_cons, List.length_cons, moved]
    rfl

theorem readPairs_of_spells {bytes : Bytes} {characters : List Char}
    (spelled : Spells bytes characters) (position : Nat) :
    readPairs position characters = .ok bytes := by
  induction spelled generalizing position with
  | nil => rfl
  | @cons byte bytes high low rest stands stands' _ ih =>
    rw [readPairs_of_digits stands stands', ih, byte_of_halves]
    rfl

def size (characters : List Char) : Nat := (String.ofList characters).utf8ByteSize

theorem size_of_digits {characters : List Char}
    (digits : ∀ character ∈ characters, IsDigit character) :
    size characters = characters.length := by
  induction characters with
  | nil => rfl
  | cons first rest ih =>
    obtain ⟨good, others⟩ := List.forall_mem_cons.1 digits
    have later : (String.ofList rest).utf8ByteSize = rest.length := ih others
    rw [size, String.ofList_cons, String.utf8ByteSize_append, String.utf8ByteSize_singleton,
      good.plain.2.2, later, List.length_cons, Nat.add_comm]

/-- What reading the characters that are left of a text comes to. -/
inductive Answers (rest : List Char) : Except HexError Bytes → Prop
  | odd : size rest % 2 = 1 → Answers rest (.error (.oddLength (size rest)))
  | bad {before after : List Char} {character : Char} : size rest % 2 = 0 →
    rest = before ++ character :: after → (∀ earlier ∈ before, IsDigit earlier) →
      ¬IsDigit character → Answers rest (.error (.invalidDigit character before.length))
  | good {bytes : Bytes} : Spells bytes rest → Answers rest (.ok bytes)

theorem decode_of_answers {text : String} {rest : List Char} {answer : Except HexError Bytes}
    (left : Leaves text rest) (answers : Answers rest answer) : decode text = answer := by
  have same := leaves_iff.1 left
  change (if size (payload text) % 2 = 1 then .error (.oddLength (size (payload text)))
    else readPairs 0 (payload text)) = answer
  rw [same]
  cases answers with
  | odd odd => rw [if_pos odd]
  | @bad before after character even split digits no =>
    have notOdd : ¬size rest % 2 = 1 := by omega
    rw [if_neg notOdd, split, readPairs_of_bad digits no, Nat.zero_add]
  | good spelled =>
    have length := spelled.length_eq
    have single := size_of_digits spelled.isDigit
    have notOdd : ¬size rest % 2 = 1 := by omega
    rw [if_neg notOdd, readPairs_of_spells spelled]

theorem exists_answer (rest : List Char) : ∃ answer, Answers rest answer := by
  by_cases odd : size rest % 2 = 1
  · exact ⟨_, .odd odd⟩
  · rcases characters_cases rest with ⟨bytes, spelled⟩ | ⟨before, bad, after, split, digits, no⟩ |
      ⟨odd', digits⟩
    · exact ⟨_, .good spelled⟩
    · exact ⟨_, .bad (by omega) split digits no⟩
    · -- digits take one byte each, so their number would be even too
      rw [size_of_digits digits] at odd
      exact absurd odd' odd

theorem decode_eq_iff {text : String} {rest : List Char} (left : Leaves text rest)
    (answer : Except HexError Bytes) : decode text = answer ↔ Answers rest answer := by
  constructor
  · rintro rfl
    obtain ⟨answer, answers⟩ := exists_answer rest
    rw [decode_of_answers left answers]
    exact answers
  · exact decode_of_answers left

/-- Reads as `readPairs` does, but has nothing to say once it asks for the second digit of a pair and
there is none. -/
def readPairs? : (position : Nat) → List Char → Option (Except HexError Bytes)
  | _, [] => some (.ok [])
  | position, [last] =>
    match digit last position with
    | .error error => some (.error error)
    | .ok _ => none
  | position, first :: second :: rest =>
    match digit first position, digit second (position + 1) with
    | .error error, _ => some (.error error)
    | .ok _, .error error => some (.error error)
    | .ok high, .ok low =>
      (readPairs? (position + 2) rest).map (Except.map (UInt8.ofNat (16 * high + low) :: ·))

def decode? (text : String) : Option (Except HexError Bytes) :=
  let characters := payload text
  let length := (String.ofList characters).utf8ByteSize
  if length % 2 = 1 then some (.error (.oddLength length)) else readPairs? 0 characters

/-- A digit beyond the end is asked for only after an odd number of digits and nothing else. -/
theorem readPairs?_eq {characters : List Char}
    (within : ¬(characters.length % 2 = 1 ∧ ∀ character ∈ characters, IsDigit character))
    (position : Nat) : readPairs? position characters = some (readPairs position characters) := by
  induction characters using List.twoStepInduction generalizing position with
  | nil => rfl
  | singleton last =>
    have no : ¬IsDigit last := fun good => within ⟨rfl, List.forall_mem_singleton.2 good⟩
    simp only [readPairs?, readPairs, digit_of_not_isDigit no]
    rfl
  | cons_cons first second rest ih =>
    by_cases good : IsDigit first
    · obtain ⟨high, stands⟩ := good
      by_cases good' : IsDigit second
      · obtain ⟨low, stands'⟩ := good'
        have later : ¬(rest.length % 2 = 1 ∧ ∀ character ∈ rest, IsDigit character) := by
          rintro ⟨odd, digits⟩
          refine within ⟨?_, List.forall_mem_cons.2 ⟨⟨_, stands⟩,
            List.forall_mem_cons.2 ⟨⟨_, stands'⟩, digits⟩⟩⟩
          rw [List.length_cons, List.length_cons]
          omega
        rw [readPairs_of_digits stands stands']
        simp only [readPairs?, digit_of_digit stands, digit_of_digit stands', ih later,
          Option.map_some]
      · simp only [readPairs?, readPairs, digit_of_digit stands, digit_of_not_isDigit good']
        rfl
    · simp only [readPairs?, readPairs, digit_of_not_isDigit good]
      rfl

theorem decode?_eq (text : String) : decode? text = some (decode text) := by
  simp only [decode?, decode]
  split
  · rfl
  · rename_i even
    refine readPairs?_eq ?_ 0
    rintro ⟨odd, digits⟩
    -- digits take one byte each, and the size in bytes was found even
    have single : size (payload text) = (payload text).length := size_of_digits digits
    rw [← single] at odd
    exact even odd

/-- Four bytes, but three characters: the last one stands alone and is found bad. -/
example : decode "0a\u00e9" = .error (.invalidDigit '\u00e9' 2) := by decide +kernel

theorem spells_encode (bytes : Bytes) : Spells bytes (encode bytes).toList := by
  rw [encode, String.toList_ofList]
  induction bytes with
  | nil => exact .nil
  | cons byte rest ih =>
    have bound := byte.toNat_lt
    exact .cons ⟨by omega, .inl rfl⟩ ⟨by omega, .inl rfl⟩ ih

theorem decode_around {before after : List Char} (blank : ∀ character ∈ before, isBlank character)
    (blank' : ∀ character ∈ after, isBlank character) (bytes : Bytes) :
    decode (String.ofList (before ++ (encode bytes).toList ++ after)) = .ok bytes := by
  have spelled := spells_encode bytes
  generalize (encode bytes).toList = core at spelled
  have plain := fun character mem => (spelled.isDigit character mem).plain
  have trims : Trims (before ++ core ++ after) core :=
    ⟨⟨before, after, rfl, blank, blank'⟩,
      fun character first => (plain character (List.mem_of_mem_head? first)).1,
      fun character last => (plain character (List.mem_of_mem_getLast? last)).1⟩
  have bare : ¬['0', 'x'] <+: core := fun marked =>
    (plain 'x' (marked.subset (by simp))).2.1 rfl
  refine decode_of_answers (.unmarked ?_ bare) (.good spelled)
  rwa [String.toList_ofList]

theorem decode_encode (bytes : Bytes) : decode (encode bytes) = .ok bytes := by
  have plain := @decode_around [] [] (by simp) (by simp) bytes
  rwa [List.nil_append, List.append_nil, String.ofList_toList] at plain

/-- Every text leaves one thing to read, which gets exactly the answer that it must get, and no digit
beyond its end is asked for on the way; and bytes come back from the text that they are written as. -/
theorem decoding_is_exact :
    (∀ text, ∃ rest, (∀ other, Leaves text other ↔ other = rest) ∧
      (∀ answer, decode text = answer ↔ Answers rest answer) ∧
      decode? text = some (decode text)) ∧
    ∀ bytes, decode (encode bytes) = .ok bytes := by
  refine ⟨fun text => ?_, decode_encode⟩
  have left : Leaves text (payload text) := leaves_iff.2 rfl
  refine ⟨payload text, fun other => ?_, decode_eq_iff left, decode?_eq text⟩
  rw [leaves_iff, eq_comm]

end Hex

end SnapshotTable
