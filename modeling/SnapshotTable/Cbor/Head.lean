import SnapshotTable.Data.Bytes

/-!
Heads of CBOR items. Every item starts with a byte that names its kind and either holds a small
argument or says how many bytes of argument follow. A writer uses the shortest form; a reader takes
every form, as `read_spells` says.
-/

namespace SnapshotTable.Cbor

set_option autoImplicit false

inductive ReadError where
  | truncated
  | malformed
  | mismatched
  | tooDeep
deriving DecidableEq

/-- Takes its value from the front of the input and leaves the rest. -/
abbrev Reader := StateT Bytes (Except ReadError)

namespace Reader

def take (count : Nat) : Reader Bytes := fun input =>
  let taken := input.take count
  if taken.length = count then .ok (taken, input.drop count) else .error .truncated

def byte : Reader UInt8 := fun
  | [] => .error .truncated
  | first :: rest => .ok (first, rest)

def number (width : Nat) : Reader Nat := do
  return (← take width).toNat

/-- Gives a reader one more step than the input has bytes. A reader whose every step but the last
takes a byte never runs out of steps before the input ends. -/
def bounded {α : Type} (reader : (steps : Nat) → Reader α) : Reader α := fun input =>
  reader (input.length + 1) input

theorem bind_of_ok {α β : Type} {reader : Reader α} {next : α → Reader β} {input rest : Bytes}
    {value : α} (read : reader input = .ok (value, rest)) :
    (reader >>= next) input = next value rest := by
  change (reader input).bind _ = _
  rw [read]
  rfl

theorem take_append (taken rest : Bytes) :
    take taken.length (taken ++ rest) = .ok (taken, rest) := by
  simp [take]

theorem number_append (width value : Nat) (rest : Bytes)
    (small : value < Bytes.capacity width) :
    number width (Bytes.bigEndian width value ++ rest) = .ok (value, rest) := by
  have taken := take_append (Bytes.bigEndian width value) rest
  rw [Bytes.length_bigEndian] at taken
  rw [number, bind_of_ok taken, Bytes.toNat_bigEndian, Nat.mod_eq_of_lt small]
  rfl

end Reader

/-- An item's head. A missing length means that the item goes on up to a `stop`. -/
inductive Head where
  | unsigned (value : Nat)
  | negative (value : Nat)
  | bytes (length : Option Nat)
  | text (length : Option Nat)
  | array (length : Option Nat)
  | map (length : Option Nat)
  | tag (number : Nat)
  | simple (number : Nat)
  | float
  | stop
deriving DecidableEq

namespace Head

/-- The head of major type `major` with an argument, in as few bytes as possible. -/
def shortest (major : Nat) (argument : Nat) : Bytes :=
  let first (minor : Nat) : UInt8 := UInt8.ofNat (major * 32 + minor)
  if argument < 24 then [first argument]
  else if argument < Bytes.capacity 1 then first 24 :: Bytes.bigEndian 1 argument
  else if argument < Bytes.capacity 2 then first 25 :: Bytes.bigEndian 2 argument
  else if argument < Bytes.capacity 4 then first 26 :: Bytes.bigEndian 4 argument
  else first 27 :: Bytes.bigEndian 8 argument

/-- The argument that a first byte announces; `none` stands for an open length. -/
def readArgument (minor : Nat) : Reader (Option Nat) :=
  if minor < 24 then pure (some minor)
  else if minor = 24 then some <$> Reader.number 1
  else if minor = 25 then some <$> Reader.number 2
  else if minor = 26 then some <$> Reader.number 4
  else if minor = 27 then some <$> Reader.number 8
  else if minor = 31 then pure none
  else throw .malformed

/-- The head made of a first byte's two parts and the argument. Integers and tags have no open
length, and the wide arguments of major type 7 are floating-point numbers. -/
def ofParts (major minor : Nat) (argument : Option Nat) : Reader Head :=
  match major, argument with
  | 0, some value => pure (.unsigned value)
  | 1, some value => pure (.negative value)
  | 2, length => pure (.bytes length)
  | 3, length => pure (.text length)
  | 4, length => pure (.array length)
  | 5, length => pure (.map length)
  | 6, some number => pure (.tag number)
  | 7, some number => pure (if minor ≤ 24 then .simple number else .float)
  | 7, none => pure .stop
  | _, _ => throw .malformed

def read : Reader Head := do
  let first ← Reader.byte
  let minor := first.toNat % 32
  let argument ← readArgument minor
  ofParts (first.toNat / 32) minor argument

private theorem read_cons (major minor : Nat) (rest : Bytes) (major_lt : major < 8)
    (minor_lt : minor < 32) :
    read (UInt8.ofNat (major * 32 + minor) :: rest) =
      (readArgument minor rest).bind fun read => ofParts major minor read.1 read.2 := by
  have first : (UInt8.ofNat (major * 32 + minor)).toNat = major * 32 + minor := by
    rw [UInt8.toNat_ofNat', Nat.mod_eq_of_lt (by omega)]
  have minorPart : (major * 32 + minor) % 32 = minor := by omega
  have majorPart : (major * 32 + minor) / 32 = major := by omega
  simp only [read, bind, StateT.bind, Reader.byte, Except.bind, first, minorPart, majorPart]

private theorem readArgument_wide (major minor width argument : Nat) (rest : Bytes)
    (reads : readArgument minor = some <$> Reader.number width)
    (small : argument < Bytes.capacity width) :
    (readArgument minor (Bytes.bigEndian width argument ++ rest)).bind
      (fun read => ofParts major minor read.1 read.2) =
        ofParts major minor (some argument) rest := by
  rw [reads]
  change ((Reader.number width (Bytes.bigEndian width argument ++ rest)).bind
    fun read => .ok (some read.1, read.2)).bind _ = _
  rw [Reader.number_append _ _ _ small]
  rfl

/-- The forms of a head with an argument: in the first byte, or in one, two, four or eight bytes
after it, whether or not it needs them. -/
inductive Spells (major argument : Nat) : Bytes → Prop
  | narrow (small : argument < 24) : Spells major argument [UInt8.ofNat (major * 32 + argument)]
  | wide {minor width : Nat} (form : (minor, width) ∈ [(24, 1), (25, 2), (26, 4), (27, 8)])
    (small : argument < Bytes.capacity width) :
    Spells major argument (UInt8.ofNat (major * 32 + minor) :: Bytes.bigEndian width argument)

theorem form_cases {minor width : Nat}
    (form : (minor, width) ∈ [(24, 1), (25, 2), (26, 4), (27, 8)]) :
    minor = 24 ∧ width = 1 ∨ minor = 25 ∧ width = 2 ∨ minor = 26 ∧ width = 4 ∨
      minor = 27 ∧ width = 8 := by
  simpa only [List.mem_cons, Prod.mk.injEq, List.not_mem_nil, or_false] using form

theorem read_spells {major argument : Nat} {bytes : Bytes} (spelled : Spells major argument bytes)
    (major_lt : major < 7) (rest : Bytes) :
    read (bytes ++ rest) = ofParts major 0 (some argument) rest := by
  have parts (minor : Nat) : ofParts major minor (some argument) =
      ofParts major 0 (some argument) := by
    match major with
    | 0 | 1 | 2 | 3 | 4 | 5 | 6 => rfl
  cases spelled with
  | narrow small =>
    rw [List.singleton_append, read_cons _ _ _ (by omega) (by omega), ← parts argument]
    simp only [readArgument, small, if_true]
    rfl
  | @wide minor width form small =>
    have reads : minor < 32 ∧ readArgument minor = some <$> Reader.number width := by
      obtain ⟨rfl, rfl⟩ | ⟨rfl, rfl⟩ | ⟨rfl, rfl⟩ | ⟨rfl, rfl⟩ := form_cases form <;>
        exact ⟨by decide, rfl⟩
    rw [List.cons_append, read_cons _ _ _ (by omega) reads.1, ← parts minor]
    exact readArgument_wide _ _ _ _ _ reads.2 small

theorem spells_shortest {major argument : Nat} (argument_lt : argument < UInt64.size) :
    Spells major argument (shortest major argument) := by
  simp only [shortest]
  split
  · rename_i small
    exact .narrow small
  split
  · rename_i small
    exact .wide (by simp) small
  split
  · rename_i small
    exact .wide (by simp) small
  split
  · rename_i small
    exact .wide (by simp) small
  · exact .wide (by simp) argument_lt

end Head

end SnapshotTable.Cbor
