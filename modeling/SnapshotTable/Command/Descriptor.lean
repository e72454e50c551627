import SnapshotTable.Text.Document
import SnapshotTable.Text.Hex
import SnapshotTable.Transaction.Descriptor

/-!
The commands that write a transaction as the hexadecimal text of its descriptor and read it back.
-/

namespace SnapshotTable.Command

set_option autoImplicit false

inductive Format where
  | text
  | json
deriving DecidableEq

structure Outcome where
  printed : String
  failure : Option String := none
deriving DecidableEq

def failed (message : String) : Outcome := { printed := "", failure := some message }

def numbers (versions : VersionSet) : Document :=
  .list (versions.toList.map fun version => .number version.toNat)

def descriptorDocument (tx : Transaction) (bytes : Bytes) : Document :=
  .record [
    ("read_pointer", .number tx.readPointer.toNat),
    ("write_pointer", .number tx.writePointer.toNat),
    ("excluded", numbers tx.excluded),
    ("descriptor", .text (Hex.encode bytes)),
    ("length", .number bytes.length)]

def printDescriptor (readPointer writePointer : UInt64) (excluded : List UInt64) (format : Format) :
    Outcome :=
  let tx := Transaction.new ⟨readPointer⟩ ⟨writePointer⟩ (excluded.map Version.mk)
  match Descriptor.encode tx with
  | .error error => failed error.message
  | .ok bytes =>
    match format with
    | .text => { printed := Hex.encode bytes ++ "\n" }
    | .json => { printed := (descriptorDocument tx bytes).print }

def listed (versions : VersionSet) : String :=
  match versions.toList with
  | [] => "none"
  | members => ", ".intercalate (members.map Version.digits)

def transactionText (tx : Transaction) : String :=
  "Transaction:\n" ++
    "  Id: " ++ tx.id.digits ++ "\n" ++
    "  Read pointer: " ++ tx.readPointer.digits ++ "\n" ++
    "  Write pointer: " ++ tx.writePointer.digits ++ "\n" ++
    "  Excluded: " ++ listed tx.excluded ++ "\n"

def transactionDocument (tx : Transaction) : Document :=
  .record [
    ("id", .number tx.id.toNat),
    ("read_pointer", .number tx.readPointer.toNat),
    ("write_pointer", .number tx.writePointer.toNat),
    ("excluded", numbers tx.excluded)]

def printTransaction (descriptor : String) (format : Format) : Outcome :=
  match Hex.decode descriptor with
  | .error error => failed error.message
  | .ok bytes =>
    match Descriptor.decode bytes with
    | .error error => failed error.message
    | .ok tx =>
      match format with
      | .text => { printed := transactionText tx }
      | .json => { printed := (transactionDocument tx).print }

end SnapshotTable.Command
