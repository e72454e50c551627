/-!
Sets of characters, given by the ranges of their code points.
-/

namespace SnapshotTable.Text

set_option autoImplicit false

/-- Whether every range ends no earlier than it begins and leaves a gap before the next one. -/
def apart : List (Nat × Nat) → Bool
  | [] => true
  | [(first, last)] => decide (first ≤ last)
  | (first, last) :: next :: rest =>
    decide (first ≤ last) && decide (last + 1 < next.1) && apart (next :: rest)

/-- A set of characters as closed ranges, in ascending order and as few as possible. -/
structure CodePoints where
  ranges : List (Nat × Nat)
  ranges_apart : apart ranges = true := by decide +kernel

namespace CodePoints

def contains (set : CodePoints) (character : Char) : Bool :=
  set.ranges.any fun range =>
    decide (range.1 ≤ character.toNat) && decide (character.toNat ≤ range.2)

end CodePoints

end SnapshotTable.Text
