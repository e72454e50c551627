import SnapshotTable.Data.Bytes
import SnapshotTable.Store.Error

/-!
Counters as cell values: a signed 64-bit number in eight big-endian bytes of its two's complement.
-/

namespace SnapshotTable.Counter

set_option autoImplicit false

def encode (count : Int64) : Bytes := Bytes.bigEndian 8 count.toUInt64.toNat

def decode (bytes : Bytes) : Except StoreError Int64 :=
  if bytes.length = 8 then .ok (UInt64.ofNat bytes.toNat).toInt64
  else .error (.counterWidth bytes.length)

def add? (count amount : Int64) : Option Int64 :=
  let sum := count.toInt + amount.toInt
  if Int64.minValue.toInt ≤ sum ∧ sum ≤ Int64.maxValue.toInt then some (Int64.ofInt sum) else none

end SnapshotTable.Counter
