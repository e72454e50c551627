import SnapshotTable.Cbor.Item

/-!
The map of four fields that carries a transaction. It is written in one way: the keys `v`, `ex`,
`rp` and `wp` in this order, of definite length, all heads as short as possible. It is read in any
form that names each of the four fields once; other fields are left out.
-/

namespace SnapshotTable

set_option autoImplicit false

open Cbor

structure Wire where
  v : UInt64
  ex : List UInt64
  rp : UInt64
  wp : UInt64
deriving DecidableEq

namespace Wire

inductive Field where
  | v
  | ex
  | rp
  | wp
deriving DecidableEq

namespace Field

def key : Field → Bytes
  | v => [0x76]
  | ex => [0x65, 0x78]
  | rp => [0x72, 0x70]
  | wp => [0x77, 0x70]

def ofKey? (key : Bytes) : Option Field := [v, ex, rp, wp].find? (·.key == key)

def write (field : Field) : Bytes := Head.shortest 3 field.key.length ++ field.key

def maxKeyLength : Nat := 4096

/-- Reads a key, which is a text or byte string in one piece; `none` stands for an unknown one. -/
def read : Reader (Option Field) := do
  match ← headPastTags with
  | .text (some length) =>
    if length ≤ maxKeyLength then
      let key ← Reader.take length
      match ofKey? key with
      | some field => pure (some field)
      | none => if validUtf8 key then pure none else throw .malformed
    else throw .mismatched
  | .bytes (some length) =>
    if length ≤ maxKeyLength then return ofKey? (← Reader.take length) else throw .mismatched
  | _ => throw .mismatched

end Field

def writeUInt64 (number : UInt64) : Bytes := Head.shortest 0 number.toNat

def writeNumbers (numbers : List UInt64) : Bytes :=
  Head.shortest 4 numbers.length ++ numbers.flatMap writeUInt64

def write (wire : Wire) : Bytes :=
  Head.shortest 5 4 ++
    Field.v.write ++ writeUInt64 wire.v ++
    Field.ex.write ++ writeNumbers wire.ex ++
    Field.rp.write ++ writeUInt64 wire.rp ++
    Field.wp.write ++ writeUInt64 wire.wp

/-- At most this many arrays, maps and tags may be open at once. -/
def maxDepth : Nat := 256

structure Draft where
  v : Option UInt64 := none
  ex : Option (List UInt64) := none
  rp : Option UInt64 := none
  wp : Option UInt64 := none

def readNumber (numbers : List UInt64) : Reader (List UInt64) := do
  return (← uint64) :: numbers

/-- Reads a list of numbers: an array, or a byte string of which every byte is a number. -/
def readNumbers : Reader (List UInt64) := do
  match ← headPastTags with
  | .array length =>
    let numbers ← elements length readNumber []
    return numbers.reverse
  | .bytes length => return (← byteString length).map (·.toUInt64)
  | _ => throw .mismatched

/-- Reads a field that must not have been read before. -/
def readOnce {α : Type} (known : Option α) (value : Reader α) : Reader (Option α) :=
  match known with
  | some _ => throw .mismatched
  | none => some <$> value

def readEntry (draft : Draft) : Reader Draft := do
  match ← Field.read with
  | some .v => return { draft with v := ← readOnce draft.v uint64 }
  | some .ex => return { draft with ex := ← readOnce draft.ex readNumbers }
  | some .rp => return { draft with rp := ← readOnce draft.rp uint64 }
  | some .wp => return { draft with wp := ← readOnce draft.wp uint64 }
  | none =>
    skip (maxDepth - 1)
    return draft

def read : Reader Wire := do
  match ← headPastTags with
  | .map length =>
    match ← elements length readEntry {} with
    | ⟨some v, some ex, some rp, some wp⟩ => pure ⟨v, ex, rp, wp⟩
    | _ => throw .mismatched
  | _ => throw .mismatched

end Wire

end SnapshotTable
