/-!
Decimal text of numbers of 64 bits: at least one digit, possibly after a plus sign. Zeros in front
count for nothing.
-/

namespace SnapshotTable.Text.Decimal

set_option autoImplicit false

/-- What the digits read so far come to, followed by one digit more. -/
def step (number : Nat) (digit : Char) : Nat := number * 10 + (digit.toNat - 48)

def readDigits? (digits : List Char) : Option Nat :=
  if digits ≠ [] ∧ digits.all Char.isDigit then
    let number := digits.foldl step 0
    if number < UInt64.size then some number else none
  else none

def read? : List Char → Option Nat
  | '+' :: digits => readDigits? digits
  | digits => readDigits? digits

/-- Digits, at least one, possibly after a plus sign, that come to a number of 64 bits. -/
structure Spells (text : List Char) (number : Nat) : Prop where
  number_lt : number < UInt64.size
  digits : ∃ digits, (text = digits ∨ text = '+' :: digits) ∧ digits ≠ [] ∧
    (∀ digit ∈ digits, digit.isDigit) ∧ Nat.ofDigitChars 10 digits 0 = number

theorem Spells.not_mem {text : List Char} {number : Nat} {character : Char}
    (spelled : Spells text number) (noSign : character ≠ '+') (noDigit : ¬character.isDigit) :
    character ∉ text := by
  intro member
  obtain ⟨digits, rfl | rfl, _, all, _⟩ := spelled.digits
  · exact noDigit (all character member)
  · exact (List.mem_cons.1 member).elim noSign fun inside => noDigit (all character inside)

theorem foldl_step (digits : List Char) (number : Nat) :
    digits.foldl step number = Nat.ofDigitChars 10 digits number := by
  induction digits generalizing number with
  | nil => rfl
  | cons digit digits induction =>
    rw [List.foldl_cons, induction, Nat.ofDigitChars_cons, step, Nat.mul_comm]
    rfl

theorem readDigits?_eq_some_iff {digits : List Char} {number : Nat} :
    readDigits? digits = some number ↔ number < UInt64.size ∧ digits ≠ [] ∧
      (∀ digit ∈ digits, digit.isDigit) ∧ Nat.ofDigitChars 10 digits 0 = number := by
  simp only [readDigits?, foldl_step, List.all_eq_true]
  split
  · rename_i proper
    simp only [Option.ite_none_right_eq_some, Option.some.injEq]
    constructor
    · intro found
      exact ⟨found.2 ▸ found.1, proper.1, proper.2, found.2⟩
    · intro spelled
      exact ⟨spelled.2.2.2 ▸ spelled.1, spelled.2.2.2⟩
  · rename_i improper
    constructor
    · intro found
      contradiction
    · intro spelled
      exact absurd ⟨spelled.2.1, spelled.2.2.1⟩ improper

theorem read?_eq_some_iff {text : List Char} {number : Nat} :
    read? text = some number ↔ Spells text number := by
  unfold read?
  split
  · rename_i digits
    rw [readDigits?_eq_some_iff]
    constructor
    · intro found
      exact ⟨found.1, digits, Or.inr rfl, found.2⟩
    · intro spelled
      obtain ⟨others, plain | signed, proper⟩ := spelled.digits
      · -- a plus sign is no digit
        have plus : ('+').isDigit := proper.2.1 '+' (plain ▸ List.mem_cons_self)
        exact absurd plus (by decide)
      · obtain rfl : digits = others := List.tail_eq_of_cons_eq signed
        exact ⟨spelled.number_lt, proper⟩
  · rename_i unsigned
    rw [readDigits?_eq_some_iff]
    constructor
    · intro found
      exact ⟨found.1, text, Or.inl rfl, found.2⟩
    · intro spelled
      obtain ⟨digits, rfl | signed, proper⟩ := spelled.digits
      · exact ⟨spelled.number_lt, proper⟩
      · exact absurd signed (unsigned digits)

end SnapshotTable.Text.Decimal
