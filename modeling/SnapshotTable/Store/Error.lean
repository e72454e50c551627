/-!
What can go wrong in a cell store.
-/

namespace SnapshotTable

set_option autoImplicit false

inductive StoreError where
  | io (reason : String)
  | closed
  | unavailable (reason : String)
  | invalidOperation (reason : String)
  | invalidValue (reason : String)
deriving DecidableEq

namespace StoreError

def message : StoreError → String
  | io reason => "I/O error: " ++ reason
  | closed => "store is closed"
  | unavailable reason => "store unavailable: " ++ reason
  | invalidOperation reason => "invalid operation: " ++ reason
  | invalidValue reason => "invalid value: " ++ reason

def isTransient : StoreError → Bool
  | io _ | unavailable _ => true
  | closed | invalidOperation _ | invalidValue _ => false

def emptyPut : StoreError := invalidOperation "put has no cells"

def checkedOtherRow : StoreError :=
  invalidOperation "checked mutation must target the checked row"

def mutationOfOtherRow : StoreError :=
  invalidOperation "mutation row does not match row mutations row"

def counterWidth (found : Nat) : StoreError :=
  invalidValue ("counter must be 8 bytes, found " ++ toString found ++ " bytes")

def counterOverflow (current amount : Int) : StoreError :=
  invalidValue
    ("increment of " ++ toString current ++ " by " ++ toString amount ++ " overflows")

end StoreError

end SnapshotTable
