import Mathlib.Data.List.Induction
import SnapshotTable.Store.Memory

/-!
Counters as numbers. Eight bytes and signed 64-bit numbers are two forms of one thing, and an
increment that succeeds adds as integers do: where the exact sum has no such form, there is no sum.
-/

namespace SnapshotTable

set_option autoImplicit false

namespace Bytes

theorem toNat_lt_capacity (bytes : Bytes) : toNat bytes < capacity bytes.length := by
  induction bytes using List.reverseRecOn with
  | nil => exact Nat.one_pos
  | append_singleton rest last ih =>
    have digit := last.toNat_lt
    rw [toNat_concat, List.length_append, List.length_singleton, capacity]
    omega

theorem bigEndian_toNat (bytes : Bytes) : bigEndian bytes.length (toNat bytes) = bytes := by
  induction bytes using List.reverseRecOn with
  | nil => rfl
  | append_singleton rest last ih =>
    have digit := last.toNat_lt
    have lowest : UInt8.ofNat (toNat rest * 256 + last.toNat) = last := by
      apply UInt8.toNat_inj.1
      rw [UInt8.toNat_ofNat']
      omega
    have others : (toNat rest * 256 + last.toNat) / 256 = toNat rest := by omega
    rw [List.length_append, List.length_singleton, bigEndian, toNat_concat, others, ih, lowest]

end Bytes

namespace Counter

theorem length_encode (count : Int64) : (encode count).length = 8 := Bytes.length_bigEndian ..

theorem toNat_encode (count : Int64) : (encode count).toNat = count.toUInt64.toNat := by
  rw [encode, Bytes.toNat_bigEndian]
  exact Nat.mod_eq_of_lt count.toUInt64.toNat_lt

theorem decode_encode (count : Int64) : decode (encode count) = .ok count := by
  rw [decode, if_pos (length_encode count), toNat_encode, UInt64.ofNat_toNat,
    Int64.toInt64_toUInt64]

theorem isOk_decode_iff {bytes : Bytes} : (decode bytes).isOk ↔ bytes.length = 8 := by
  rw [decode]
  split
  · rename_i wide
    exact iff_of_true rfl wide
  · rename_i other
    exact iff_of_false nofun other

theorem encode_of_decode {bytes : Bytes} {count : Int64} (decoded : decode bytes = .ok count) :
    encode count = bytes := by
  have wide : bytes.length = 8 := isOk_decode_iff.1 (by rw [decoded]; rfl)
  rw [decode, if_pos wide] at decoded
  have small : bytes.toNat < 2 ^ 64 := by
    have below := bytes.toNat_lt_capacity
    rwa [wide] at below
  rw [← Except.ok.inj decoded, encode, UInt64.toUInt64_toInt64,
    UInt64.toNat_ofNat_of_lt' small, ← wide, Bytes.bigEndian_toNat]

def Fits (number : Int) : Prop :=
  Int64.minValue.toInt ≤ number ∧ number ≤ Int64.maxValue.toInt

instance (number : Int) : Decidable (Fits number) :=
  inferInstanceAs (Decidable (Int64.minValue.toInt ≤ number ∧ number ≤ Int64.maxValue.toInt))

theorem fits_iff {number : Int} : Fits number ↔ ∃ count : Int64, count.toInt = number := by
  constructor
  · rintro ⟨lower, upper⟩
    exact ⟨_, Int64.toInt_ofInt_of_le lower (Int.lt_of_le_sub_one upper)⟩
  · rintro ⟨count, rfl⟩
    exact ⟨count.minValue_le_toInt, count.toInt_le⟩

theorem add?_eq_some_iff {count amount sum : Int64} :
    add? count amount = some sum ↔ sum.toInt = count.toInt + amount.toInt := by
  constructor
  · intro added
    obtain ⟨⟨lower, upper⟩, same⟩ := Option.ite_none_right_eq_some.1 added
    rw [← Option.some.inj same]
    exact Int64.toInt_ofInt_of_le lower (Int.lt_of_le_sub_one upper)
  · intro exact_sum
    have inside : Int64.minValue.toInt ≤ count.toInt + amount.toInt ∧
        count.toInt + amount.toInt ≤ Int64.maxValue.toInt := by
      rw [← exact_sum]
      exact ⟨sum.minValue_le_toInt, sum.toInt_le⟩
    rw [add?, if_pos inside, ← exact_sum, Int64.ofInt_toInt]

/-- What a stored value counts. An absent counter stands at zero. -/
def standing (value? : Option Bytes) : Except StoreError Int64 := value?.elim (.ok 0) decode

theorem standing_eq_error_iff {value? : Option Bytes} :
    ¬(standing value?).isOk ↔ ∃ value, value? = some value ∧ value.length ≠ 8 := by
  cases value? with
  | none => exact iff_of_false (fun failed => failed rfl) nofun
  | some value => simp [standing, isOk_decode_iff]

end Counter

/-- An increment stores the exact sum, in the form of a counter, or fails. -/
theorem MemoryStore.incremented_eq_ok_iff {current : Option Bytes} {amount : Int64}
    {value : Bytes} : incremented current amount = .ok value ↔ ∃ count sum : Int64,
      Counter.standing current = .ok count ∧ sum.toInt = count.toInt + amount.toInt ∧
        value = Counter.encode sum := by
  have same : incremented current amount = (Counter.standing current).bind fun count =>
      (Counter.add? count amount).elim (.error (.counterOverflow count.toInt amount.toInt))
        fun sum => .ok (Counter.encode sum) := by
    refine congrArg (Counter.standing current).bind (funext fun count => ?_)
    cases Counter.add? count amount with
    | none => rfl
    | some sum => rfl
  rw [same]
  cases counted : Counter.standing current with
  | error error =>
    constructor
    · intro stored
      cases stored
    · rintro ⟨_, _, failed, _⟩
      cases failed
  | ok count =>
    change (Counter.add? count amount).elim _ _ = _ ↔ _
    cases added : Counter.add? count amount with
    | none =>
      constructor
      · intro stored
        cases stored
      · rintro ⟨_, sum, counts, exact_sum, _⟩
        rw [← Except.ok.inj counts] at exact_sum
        rw [Counter.add?_eq_some_iff.2 exact_sum] at added
        cases added
    | some sum =>
      have exact_sum := Counter.add?_eq_some_iff.1 added
      constructor
      · intro stored
        exact ⟨count, sum, rfl, exact_sum, (Except.ok.inj stored).symm⟩
      · rintro ⟨_, other, counts, also, rfl⟩
        rw [← Except.ok.inj counts, ← exact_sum] at also
        rw [Int64.toInt_inj.1 also]
        rfl

/-- There is nothing to store for an increment: the value is no counter, or the exact sum is none. -/
def Counter.Refuses (value? : Option Bytes) (amount : Int64) : Prop :=
  (∃ value, value? = some value ∧ value.length ≠ 8) ∨
    ∃ count : Int64, standing value? = .ok count ∧ ¬Fits (count.toInt + amount.toInt)

theorem MemoryStore.isOk_incremented_iff {current : Option Bytes} {amount : Int64} :
    (incremented current amount).isOk ↔ ¬Counter.Refuses current amount := by
  have stored : (incremented current amount).isOk ↔
      ∃ value, incremented current amount = .ok value := by
    cases incremented current amount with
    | error error => exact iff_of_false nofun nofun
    | ok value => exact iff_of_true rfl ⟨value, rfl⟩
  rw [stored, Counter.Refuses, ← Counter.standing_eq_error_iff]
  cases counted : Counter.standing current with
  | error error =>
    refine iff_of_false ?_ fun accepted => accepted (.inl nofun)
    rintro ⟨_, done⟩
    obtain ⟨count, _, same, _⟩ := incremented_eq_ok_iff.1 done
    rw [counted] at same
    cases same
  | ok count =>
    constructor
    · rintro ⟨value, done⟩ (failed | ⟨other, same, out⟩)
      · exact failed rfl
      · obtain ⟨start, sum, also, exact_sum, _⟩ := incremented_eq_ok_iff.1 done
        rw [counted] at also
        obtain rfl : count = other := Except.ok.inj same
        obtain rfl : count = start := Except.ok.inj also
        exact out (Counter.fits_iff.2 ⟨sum, exact_sum⟩)
    · intro accepted
      have fits : Counter.Fits (count.toInt + amount.toInt) :=
        Decidable.byContradiction fun out => accepted (.inr ⟨count, rfl, out⟩)
      obtain ⟨sum, exact_sum⟩ := Counter.fits_iff.1 fits
      exact ⟨_, incremented_eq_ok_iff.2 ⟨count, sum, counted, exact_sum, rfl⟩⟩

end SnapshotTable
