import SnapshotTable.Data.SortedSet

/-!
Versions of cells. A version is a 64-bit number; the greatest one is no ordinary version but asks
the store to assign one, and as a ceiling it admits everything.
-/

namespace SnapshotTable

set_option autoImplicit false

structure Version where
  value : UInt64
deriving DecidableEq, Inhabited

namespace Version

instance : Ord Version := ⟨compareOn value⟩

instance : Std.TransOrd Version := inferInstanceAs (Std.TransCmp (compareOn value))

instance : Std.LawfulEqOrd Version where
  eq_of_compare {a b} h := by
    have : a.value = b.value := Std.LawfulEqOrd.eq_of_compare (α := UInt64) h
    cases a; cases b; simp_all

instance : LE Version := ⟨fun a b => a.value ≤ b.value⟩

instance : LT Version := ⟨fun a b => a.value < b.value⟩

instance (a b : Version) : Decidable (a ≤ b) := inferInstanceAs (Decidable (a.value ≤ b.value))

instance (a b : Version) : Decidable (a < b) := inferInstanceAs (Decidable (a.value < b.value))

instance : Min Version := minOfLe

def zero : Version := ⟨0⟩

/-- Asks the store to assign a version when it stands on a cell to be written. -/
def latest : Version := ⟨18446744073709551615⟩

def isLatest (version : Version) : Bool := version == latest

/-- The version after this one; `latest` is its own successor. -/
def next (version : Version) : Version :=
  if version.isLatest then latest else ⟨version.value + 1⟩

/-- The version before this one; zero is its own predecessor. -/
def previous (version : Version) : Version :=
  if version = zero then zero else ⟨version.value - 1⟩

def toNat (version : Version) : Nat := version.value.toNat

def digits (version : Version) : String := toString version.toNat

def display (version : Version) : String :=
  if version.isLatest then "v:latest" else "v:" ++ version.digits

def newestFirst (a b : Version) : Ordering := compare b a

instance : Std.TransCmp newestFirst :=
  inferInstanceAs (Std.TransCmp fun a b : Version => compare b a)

instance : Std.LawfulEqCmp newestFirst :=
  inferInstanceAs (Std.LawfulEqCmp fun a b : Version => compare b a)

theorem le_iff {a b : Version} : a ≤ b ↔ a.toNat ≤ b.toNat := UInt64.le_iff_toNat_le

theorem lt_iff {a b : Version} : a < b ↔ a.toNat < b.toNat := UInt64.lt_iff_toNat_lt

protected theorem le_refl (version : Version) : version ≤ version := le_iff.2 (Nat.le_refl _)

theorem ext_toNat {a b : Version} (same : a.toNat = b.toNat) : a = b := by
  cases a; cases b
  exact congrArg mk (UInt64.toNat_inj.1 same)

theorem toNat_le (version : Version) : version.toNat ≤ latest.toNat := by
  have := version.value.toNat_lt
  simp only [toNat, latest]
  exact Nat.le_of_lt_succ this

theorem le_min {version a b : Version} : version ≤ min a b ↔ version ≤ a ∧ version ≤ b := by
  change version ≤ (if a ≤ b then a else b) ↔ _
  simp only [le_iff]
  split <;> omega

end Version

abbrev VersionSet := SortedSet Version compare

end SnapshotTable
