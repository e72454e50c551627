import SnapshotTable.Transaction.Basic
import SnapshotTable.Store.Error

/-!
What can go wrong at a transactional table.
-/

namespace SnapshotTable

set_option autoImplicit false

inductive TableError where
  | notBound
  | alreadyBound (writePointer : Version)
  | unsupported (operation : String)
  | invalidMutation (reason : String)
  | store (error : StoreError)
  | codec (error : CodecError)
  | rollbackPartialFailure (failed : Nat) (first : TableError)
deriving DecidableEq

namespace TableError

def message : TableError → String
  | notBound => "no transaction is bound to this table"
  | alreadyBound writePointer =>
    "transaction " ++ writePointer.display ++ " is still bound to this table"
  | unsupported operation => operation ++ " is not supported inside a transaction"
  | invalidMutation reason => "invalid mutation: " ++ reason
  | store error => "store error: " ++ error.message
  | codec error => "codec error: " ++ error.message
  | rollbackPartialFailure failed first =>
    "rollback finished with " ++ toString failed ++ " failed compensating action(s); first: " ++
      first.message

/-- Only store errors may go away when the call is tried again. -/
def isRetryable : TableError → Bool
  | store _ => true
  | _ => false

def causes : TableError → List String
  | store (.io reason) => [(StoreError.io reason).message, reason]
  | store error => [error.message]
  | codec error => [error.message]
  | rollbackPartialFailure _ first => first.message :: first.causes
  | _ => []

def emptyPut : TableError := invalidMutation "put has no cells"

def noCounter : TableError := invalidMutation "increment returned no value for the column"

end TableError

end SnapshotTable
