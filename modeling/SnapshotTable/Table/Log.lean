import SnapshotTable.Data.Request

/-!
What a bound table remembers: the writes that wait for commit, in the order in which they were
made, and, if asked for, the reads between them.
-/

namespace SnapshotTable

set_option autoImplicit false

/-- A pending delete keeps what its row held below the write pointer, and the visible part of it. -/
inductive PendingEntry where
  | get (request : Get)
  | put (request : Put)
  | delete (request : Delete) (preImage undoImage : RowResult)
deriving DecidableEq

namespace PendingEntry

def row : PendingEntry → Bytes
  | get request => request.row
  | put request => request.row
  | delete request _ _ => request.row

def isWrite : PendingEntry → Bool
  | get _ => false
  | put _ | delete .. => true

def read? : PendingEntry → Option Get
  | get request => some request
  | put _ | delete .. => none

end PendingEntry

abbrev PendingLog := List PendingEntry

namespace PendingLog

def writeCount (log : PendingLog) : Nat := log.countP (·.isWrite)

def touch (rows : List Bytes) (row : Bytes) : List Bytes :=
  if rows.contains row then rows else rows ++ [row]

/-- The rows of the writes, each once, in the order of their first write. -/
def changedRows (log : PendingLog) : List Bytes :=
  ((log.filter (·.isWrite)).map (·.row)).foldl touch []

def reads (log : PendingLog) : List Get := log.filterMap (·.read?)

end PendingLog

end SnapshotTable
