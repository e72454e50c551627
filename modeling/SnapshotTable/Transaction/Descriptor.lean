import SnapshotTable.Data.Request
import SnapshotTable.Transaction.Basic
import SnapshotTable.Transaction.Wire

/-!
Transaction descriptors: the byte form of a valid transaction, and how a request carries it.
-/

namespace SnapshotTable

set_option autoImplicit false

namespace Cbor.ReadError

def label : ReadError → String
  | truncated => "Io"
  | malformed => "Syntax"
  | mismatched => "Semantic"
  | tooDeep => "RecursionLimitExceeded"

end Cbor.ReadError

namespace Descriptor

def formatVersion : UInt64 := 1

def attributeKey : String := "txtable.tx"

def wire (tx : Transaction) : Wire where
  v := formatVersion
  ex := tx.excluded.toList.map (·.value)
  rp := tx.readPointer.value
  wp := tx.writePointer.value

def encode (tx : Transaction) : Except CodecError Bytes := do
  tx.validate
  return (wire tx).write

/-- The transaction in a descriptor's fields: first the format version counts, then validity. -/
def ofWire (wire : Wire) : Except CodecError Transaction := do
  if wire.v ≠ formatVersion then throw (.unsupportedVersion wire.v)
  let tx := Transaction.new ⟨wire.rp⟩ ⟨wire.wp⟩ (wire.ex.map Version.mk)
  tx.validate
  return tx

/-- Nothing may follow the descriptor. -/
def decode (bytes : Bytes) : Except CodecError Transaction :=
  match Wire.read bytes with
  | .error error => .error (.decodingFailed error.label)
  | .ok (wire, rest) => if rest.isEmpty then ofWire wire else .error (.trailing rest.length)

variable {ρ : Type} [Attributed ρ]

def attach (tx : Transaction) (request : ρ) : Except CodecError ρ := do
  return Attributed.setAttribute request attributeKey (← encode tx)

def attached? (request : ρ) : Except CodecError (Option Transaction) :=
  match Attributed.attribute? request attributeKey with
  | some bytes => some <$> decode bytes
  | none => .ok none

end Descriptor

end SnapshotTable
