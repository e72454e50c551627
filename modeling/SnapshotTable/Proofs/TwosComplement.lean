import Mathlib.Algebra.Ring.Int.Defs
import SnapshotTable.Proofs.Counting

/-!
Counters in two's complement. The bytes of a counter are the lowest eight base-256 digits of its
number, most significant first, and counters and strings of eight bytes correspond one to one. Byte
strings of one length are in the order of their numbers, so the bytes of counters put those below
zero last and keep the order otherwise.
-/

namespace SnapshotTable

set_option autoImplicit false

namespace Bytes

/-- The lowest `width` base-256 digits of an integer, most significant first. Division rounds down, so
below zero the digits go on as 255. -/
def twosComplement (width : Nat) (number : Int) : Bytes :=
  (List.range width).reverse.map fun place => UInt8.ofInt (number / 256 ^ place)

theorem twosComplement_succ (width : Nat) (number : Int) : twosComplement (width + 1) number =
    twosComplement width (number / 256) ++ [UInt8.ofInt number] := by
  have higher (place : Nat) : number / 256 ^ (place + 1) = number / 256 / 256 ^ place := by
    rw [Int.pow_succ', Int.ediv_ediv_of_nonneg (by decide)]
  have lowest : number / 256 ^ 0 = number := Int.ediv_one number
  rw [twosComplement, List.range_succ_eq_map, List.reverse_cons, List.map_append, ← List.map_reverse,
    List.map_map, List.map_singleton, lowest]
  exact congrArg (· ++ _) (List.map_congr_left fun place _ => congrArg UInt8.ofInt (higher place))

/-- Integers that differ by a multiple of `256 ^ width` have the same lowest digits. -/
theorem bigEndian_eq_twosComplement {width number : Nat} {whole wraps : Int}
    (apart : (number : Int) = whole + 256 ^ width * wraps) :
    bigEndian width number = twosComplement width whole := by
  induction width generalizing number whole with
  | zero => rfl
  | succ width ih =>
    rw [Int.pow_succ', Int.mul_assoc] at apart
    have higher : ((number / 256 : Nat) : Int) = whole / 256 + 256 ^ width * wraps := by omega
    have lowest : UInt8.ofNat number = UInt8.ofInt whole := by
      have digit : number % 2 ^ 8 = (whole % 2 ^ 8).toNat := by omega
      rw [UInt8.ofInt, ← digit, UInt8.ofNat_mod_size]
    rw [bigEndian, twosComplement_succ, lowest, ih higher]

theorem toNat_cons (leading : UInt8) (rest : Bytes) :
    toNat (leading :: rest) = leading.toNat * capacity rest.length + toNat rest := by
  induction rest using List.reverseRecOn with
  | nil => simp [toNat, capacity]
  | append_singleton rest last ih =>
    rw [← List.cons_append, toNat_concat, ih, toNat_concat, List.length_append,
      List.length_singleton, capacity, Nat.add_mul, Nat.mul_assoc, Nat.add_assoc]

theorem compare_leading {leading other low low' scale : Nat} (below : low < scale)
    (below' : low' < scale) : compare (leading * scale + low) (other * scale + low') =
      (compare leading other).then (compare low low') := by
  have step {small large : Nat} (order : small < large) : small * scale + scale ≤ large * scale := by
    rw [← Nat.succ_mul]
    exact Nat.mul_le_mul_right scale order
  rcases Nat.lt_trichotomy leading other with order | rfl | order
  · have apart := step order
    rw [Nat.compare_eq_lt.2 order, Nat.compare_eq_lt.2 (by omega)]
    rfl
  · rw [Nat.compare_eq_eq.2 (rfl : leading = leading)]
    simp only [Nat.compare_eq_ite_lt, Nat.add_lt_add_iff_left, Ordering.then]
  · have apart := step order
    rw [Nat.compare_eq_gt.2 order, Nat.compare_eq_gt.2 (by omega)]
    rfl

theorem compare_of_length_eq {first second : Bytes} (same : first.length = second.length) :
    compare first second = compare first.toNat second.toNat := by
  induction first generalizing second with
  | nil =>
    rw [List.length_eq_zero_iff.1 same.symm]
    rfl
  | cons byte rest ih =>
    cases second with
    | nil => cases same
    | cons other others =>
      have shorter : rest.length = others.length := Nat.succ.inj same
      have below := toNat_lt_capacity rest
      have below' := toNat_lt_capacity others
      rw [← shorter] at below'
      rw [List.compare_cons_cons, ih shorter, UInt8.compare_eq_toNat_compare_toNat, toNat_cons,
        toNat_cons, ← shorter, compare_leading below below']

end Bytes

namespace Counter

theorem toNat_toUInt64 (count : Int64) : (count.toUInt64.toNat : Int) =
    count.toInt + 256 ^ 8 * if count.toInt < 0 then 1 else 0 := by
  have number : count.toInt = if 2 * count.toUInt64.toNat < 2 ^ 64 then (count.toUInt64.toNat : Int)
      else count.toUInt64.toNat - (2 ^ 64 : Nat) := BitVec.toInt_eq_toNat_cond count.toBitVec
  have below := count.toUInt64.toNat_lt
  split at number <;> split <;> omega

theorem encode_eq_twosComplement (count : Int64) :
    encode count = Bytes.twosComplement 8 count.toInt :=
  Bytes.bigEndian_eq_twosComplement (toNat_toUInt64 count)

theorem compare_of_shift {number number' : Nat} {count count' shift : Int}
    (apart : (number : Int) = count + shift) (apart' : (number' : Int) = count' + shift) :
    compare number number' = compare count count' := by
  have before : number < number' ↔ count < count' := by omega
  have after : number' < number ↔ count' < count := by omega
  simp only [Nat.compare_eq_ite_lt, Int.compare_eq_ite_lt, before, after]

/-- Counters below zero come after all others, and apart from that the bytes are in the order of what
is counted. -/
theorem compare_encode (first second : Int64) : compare (encode first) (encode second) =
    (compare (decide (first.toInt < 0)) (decide (second.toInt < 0))).then
      (compare first.toInt second.toInt) := by
  have number := toNat_toUInt64 first
  have number' := toNat_toUInt64 second
  have bounds : -2 ^ 63 ≤ first.toInt ∧ first.toInt < 2 ^ 63 := ⟨first.le_toInt, first.toInt_lt⟩
  have bounds' : -2 ^ 63 ≤ second.toInt ∧ second.toInt < 2 ^ 63 := ⟨second.le_toInt, second.toInt_lt⟩
  rw [Bytes.compare_of_length_eq ((length_encode first).trans (length_encode second).symm),
    toNat_encode, toNat_encode]
  by_cases negative : first.toInt < 0 <;> by_cases negative' : second.toInt < 0
  all_goals
    simp only [negative, negative', if_true, if_false, decide_true, decide_false] at number number' ⊢
  · exact compare_of_shift number number'
  -- of two with unlike signs, the one below zero was moved up by 2 ^ 64, past the other
  · exact Nat.compare_eq_gt.2 (by omega)
  · exact Nat.compare_eq_lt.2 (by omega)
  · exact compare_of_shift number number'

example : compare (encode (-1)) (encode 1) = .gt := by decide

/-- Counters and strings of eight bytes are two forms of one thing: each is had back from the other,
and no other string is a counter. The form is two's complement, most significant byte first, which
leaves counters that are not below zero in their order. -/
theorem counters_correspond_to_eight_bytes :
    (∀ count, (encode count).length = 8 ∧ decode (encode count) = .ok count) ∧
      (∀ bytes : Bytes, bytes.length = 8 →
        ∃ count, decode bytes = .ok count ∧ encode count = bytes) ∧
      (∀ bytes : Bytes, bytes.length ≠ 8 → decode bytes = .error (.invalidValue
        ("counter must be 8 bytes, found " ++ toString bytes.length ++ " bytes"))) ∧
      (∀ count, encode count = Bytes.twosComplement 8 count.toInt) ∧
      ∀ first second : Int64, 0 ≤ first.toInt → 0 ≤ second.toInt →
        compare (encode first) (encode second) = compare first.toInt second.toInt := by
  refine ⟨fun count => ⟨length_encode count, decode_encode count⟩, fun bytes wide => ?_,
    fun bytes other => if_neg other, encode_eq_twosComplement, fun first second above above' => ?_⟩
  · have decoded : decode bytes = .ok (UInt64.ofNat bytes.toNat).toInt64 := if_pos wide
    exact ⟨_, decoded, encode_of_decode decoded⟩
  · rw [compare_encode, decide_eq_false (Int.not_lt.2 above), decide_eq_false (Int.not_lt.2 above')]
    rfl

/-- The least counter and the next, a string of three bytes, and two counters with their last bytes in
the other order. -/
theorem counters_correspond_to_eight_bytes_at_extremes :
    let least : Bytes := [0x80, 0, 0, 0, 0, 0, 0, 0]
    let next : Bytes := [0x80, 0, 0, 0, 0, 0, 0, 1]
    let short : Bytes := [0x61, 0x62, 0x63]
    encode Int64.minValue = least ∧ next.length = 8 ∧
      (∃ count, decode next = .ok count ∧ encode count = next) ∧ short.length ≠ 8 ∧
      decode short = .error (.invalidValue "counter must be 8 bytes, found 3 bytes") ∧
      0 ≤ Int64.toInt 255 ∧ 0 ≤ Int64.toInt 256 ∧ compare (encode 255) (encode 256) = .lt := by
  intro least next short
  obtain ⟨_, wide, other, digits, order⟩ := counters_correspond_to_eight_bytes
  have short' : short.length ≠ 8 := by decide
  have found : "counter must be 8 bytes, found " ++ toString short.length ++ " bytes" =
      "counter must be 8 bytes, found 3 bytes" := by decide +kernel
  refine ⟨(digits _).trans (by decide +kernel), rfl, wide next rfl, short', ?_, by decide, by decide,
    (order 255 256 (by decide) (by decide)).trans (by decide)⟩
  rw [← found]
  exact other short short'

end Counter

end SnapshotTable
