import SnapshotTable.Command.Descriptor
import SnapshotTable.Sample

/-!
The command that runs two scenarios on a table over a memory store: a committed write is seen by
the next transaction, and a deleted value is there again after a rollback.
-/

namespace SnapshotTable.Command

set_option autoImplicit false

inductive Scenario where
  | commit
  | rollback
  | all
deriving DecidableEq

structure ScenarioResult where
  name : String
  observed : Option String
  expected : String
deriving DecidableEq

namespace ScenarioResult

def passed (result : ScenarioResult) : Bool := result.observed == some result.expected

def document (result : ScenarioResult) : Document :=
  .record [
    ("name", .text result.name),
    ("observed", result.observed.elim .absent .text),
    ("expected", .text result.expected),
    ("passed", .flag result.passed)]

def line (result : ScenarioResult) : String :=
  result.name ++ ": " ++ (if result.passed then "ok" else "FAILED") ++
    " (observed " ++ result.observed.getD "<absent>" ++ ", expected " ++ result.expected ++ ")\n"

end ScenarioResult

namespace Demo

abbrev Run := ExceptT TableError (StateM (Table × MemoryStore))

def ask (call : TableCall) : Run call.Reply := fun (table, store) => table.perform store call

def readValue (row : Bytes) (column : Column) : Run (Option Bytes) := fun (table, store) =>
  Sample.readValue table row column store

def close : Run Unit := fun (table, store) =>
  let (result, store) := Table.close store
  (result, table, store)

def row : Bytes := [0x52]

def column : Column := ⟨[0x46], [0x43]⟩

def snapshot (readPointer writePointer : UInt64) : Transaction :=
  .new ⟨readPointer⟩ ⟨writePointer⟩ []

def showValue (value : Bytes) : String :=
  (String.fromUTF8? ⟨value.toArray⟩).getD "\ufffd"

/-- Reads the value as a transaction sees it that has nothing to write, and closes the table. -/
def observe (tx : Transaction) : Run (Option String) := do
  ask (.bind tx)
  let observed ← readValue row column
  ask .postCommit
  close
  return observed.map showValue

def commitScenario : Run ScenarioResult := do
  ask (.bind (snapshot 0 1))
  ask (.put (({ row := row } : Put).add column (Bytes.ofText "V1")))
  ask .commit
  ask .postCommit
  return { name := "commit", observed := ← observe (snapshot 1 2), expected := "V1" }

def rollbackScenario : Run ScenarioResult := do
  ask (.bind (snapshot 1 2))
  ask (.delete { row := row })
  ask .rollback
  return { name := "rollback", observed := ← observe (snapshot 2 3), expected := "V0" }

def seed : Put := ({ row := row, timestamp := ⟨1⟩ } : Put).add column (Bytes.ofText "V0")

def runCommit : Except TableError ScenarioResult := (commitScenario.run ({}, {})).1

def runRollback : Except TableError ScenarioResult :=
  (rollbackScenario.run ({}, (MemoryStore.perform (.put seed) {}).2)).1

def results : Scenario → Except TableError (List ScenarioResult)
  | .commit => return [← runCommit]
  | .rollback => return [← runRollback]
  | .all => return [← runCommit, ← runRollback]

end Demo

def printDemo (scenario : Scenario) (format : Format) : Outcome :=
  match Demo.results scenario with
  | .error error => failed error.message
  | .ok results =>
    let printed := match format with
      | .text => String.join (results.map (·.line))
      | .json => (Document.list (results.map (·.document))).print
    { printed := printed
      failure := if results.all (·.passed) then none else some "demo scenario failed" }

end SnapshotTable.Command
