import SnapshotTable.Data.Bytes
import SnapshotTable.Text.Character

/-!
Hexadecimal text. Bytes are written as two lower-case digits each. Text is read in either case,
after trimming white space and leaving out one `0x` in front.
-/

namespace SnapshotTable

set_option autoImplicit false

inductive HexError where
  | oddLength (length : Nat)
  | invalidDigit (character : Char) (position : Nat)
deriving DecidableEq

namespace HexError

def message : HexError → String
  | oddLength length => "hex input has odd length " ++ toString length
  | invalidDigit character position =>
    "invalid hex digit " ++ Text.quoted character ++ " at position " ++ toString position

end HexError

namespace Hex

def writeByte (byte : UInt8) : List Char :=
  [Nat.digitChar (byte.toNat / 16), Nat.digitChar (byte.toNat % 16)]

def encode (bytes : Bytes) : String := String.ofList (bytes.flatMap writeByte)

def digit? (character : Char) : Option Nat :=
  if '0' ≤ character ∧ character ≤ '9' then some (character.toNat - 48)
  else if 'a' ≤ character ∧ character ≤ 'f' then some (character.toNat - 87)
  else if 'A' ≤ character ∧ character ≤ 'F' then some (character.toNat - 55)
  else none

def digit (character : Char) (position : Nat) : Except HexError Nat :=
  match digit? character with
  | some value => .ok value
  | none => .error (.invalidDigit character position)

def readPairs : (position : Nat) → List Char → Except HexError Bytes
  | _, [] => .ok []
  | position, [last] => do
    let _ ← digit last position
    throw (.oddLength (position + 1))
  | position, first :: second :: rest => do
    let high ← digit first position
    let low ← digit second (position + 1)
    let bytes ← readPairs (position + 2) rest
    return UInt8.ofNat (16 * high + low) :: bytes

/-- What is left of a text without the white space around it and one `0x` in front. -/
def payload (text : String) : List Char :=
  match Text.trim text.toList with
  | '0' :: 'x' :: rest => rest
  | characters => characters

/-- The length is counted in UTF-8 bytes, the position of a bad digit in characters. -/
def decode (text : String) : Except HexError Bytes :=
  let characters := payload text
  let length := (String.ofList characters).utf8ByteSize
  if length % 2 = 1 then .error (.oddLength length) else readPairs 0 characters

end Hex

end SnapshotTable
