import SnapshotTable.Data.Version

/-!
Transactions as snapshots. A transaction sees the versions up to its read pointer that it does not
exclude, and writes at its write pointer.
-/

namespace SnapshotTable

set_option autoImplicit false

inductive CodecError where
  | encodingFailed (reason : String)
  | decodingFailed (reason : String)
  | unsupportedVersion (version : UInt64)
  | invalidTransaction (reason : String)
deriving DecidableEq

namespace CodecError

def message : CodecError → String
  | encodingFailed reason => "encoding failed: " ++ reason
  | decodingFailed reason => "decoding failed: " ++ reason
  | unsupportedVersion version =>
    "unsupported descriptor format version " ++ toString version.toNat
  | invalidTransaction reason => "invalid transaction: " ++ reason

def trailing (count : Nat) : CodecError :=
  decodingFailed (toString count ++ " trailing bytes after descriptor")

def latestWritePointer : CodecError :=
  invalidTransaction "write pointer cannot be the store's LATEST sentinel"

def excludedAbove (excluded writePointer : Version) : CodecError :=
  invalidTransaction
    ("excluded version " ++ excluded.digits ++ " is above write pointer " ++ writePointer.digits)

end CodecError

structure Transaction where
  readPointer : Version
  writePointer : Version
  excluded : VersionSet
deriving DecidableEq

namespace Transaction

def new (readPointer writePointer : Version) (excluded : List Version) : Transaction :=
  ⟨readPointer, writePointer, SortedSet.ofMembers excluded⟩

def id (tx : Transaction) : Version := tx.writePointer

def excludes (tx : Transaction) (version : Version) : Bool := tx.excluded.contains version

def sees (tx : Transaction) (version : Version) : Bool :=
  decide (version ≤ tx.readPointer) && !tx.excludes version

/-- The write pointer must be an ordinary version, and no excluded version may lie above it. The
lowest offender is reported. -/
def validate (tx : Transaction) : Except CodecError Unit :=
  if tx.writePointer.isLatest then .error .latestWritePointer
  else
    match tx.excluded.toList.find? (tx.writePointer < ·) with
    | some version => .error (.excludedAbove version tx.writePointer)
    | none => .ok ()

theorem validate_eq_ok_iff {tx : Transaction} :
    tx.validate = .ok () ↔ tx.writePointer ≠ .latest ∧
      ∀ version ∈ tx.excluded.toList, ¬ tx.writePointer < version := by
  rw [validate, Version.isLatest]
  by_cases latest : tx.writePointer = .latest
  · simp [latest]
  · simp only [latest, beq_iff_eq, if_false, ne_eq, not_false_eq_true, true_and]
    split
    · rename_i version found
      have above := List.find?_some found
      have mem := List.mem_of_find?_eq_some found
      simp only [reduceCtorEq, false_iff, Classical.not_forall]
      exact ⟨version, mem, by simpa using above⟩
    · rename_i absent
      simpa using absent

def display (tx : Transaction) : String :=
  "tx(wp=" ++ tx.writePointer.digits ++ ", rp=" ++ tx.readPointer.digits ++
    ", excluded=" ++ toString tx.excluded.size ++ ")"

end Transaction

end SnapshotTable
