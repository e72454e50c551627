/-!
Byte strings and their big-endian numbers. Byte strings are ordered byte by byte, a proper
beginning coming first; this is the order of rows and columns in a store.
-/

namespace SnapshotTable

set_option autoImplicit false

abbrev Bytes := List UInt8

namespace Bytes

def ofText (text : String) : Bytes := text.toUTF8.data.toList

/-- How many numbers a given width of base-256 digits can write. -/
def capacity : (width : Nat) → Nat
  | 0 => 1
  | width + 1 => capacity width * 256

/-- The lowest `width` base-256 digits of a number, most significant first. -/
def bigEndian : (width : Nat) → (number : Nat) → Bytes
  | 0, _ => []
  | width + 1, number => bigEndian width (number / 256) ++ [UInt8.ofNat number]

def toNat (bytes : Bytes) : Nat :=
  bytes.foldl (fun number byte => number * 256 + byte.toNat) 0

theorem length_bigEndian (width number : Nat) : (bigEndian width number).length = width := by
  induction width generalizing number with
  | zero => rfl
  | succ width ih => simp [bigEndian, ih]

theorem toNat_concat (bytes : Bytes) (last : UInt8) :
    toNat (bytes ++ [last]) = toNat bytes * 256 + last.toNat := by
  simp [toNat]

theorem toNat_bigEndian (width number : Nat) :
    toNat (bigEndian width number) = number % capacity width := by
  induction width generalizing number with
  | zero => simp [bigEndian, toNat, capacity, Nat.mod_one]
  | succ width ih =>
    rw [bigEndian, toNat_concat, ih, capacity, Nat.mul_comm (capacity width), Nat.mod_mul,
      UInt8.toNat_ofNat', Nat.add_comm, Nat.mul_comm]

end Bytes

end SnapshotTable
