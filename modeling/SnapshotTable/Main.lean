import SnapshotTable.Command.Arguments

/-!
The program: runs the command given on the command line, prints what it prints, and reports its
failure on the error stream.
-/

open SnapshotTable

def main (arguments : List String) : IO UInt32 := do
  match Command.parse arguments with
  | .error message =>
    IO.eprintln ("error: " ++ message)
    return 2
  | .ok command =>
    let outcome := command.run
    IO.print outcome.printed
    match outcome.failure with
    | none => return 0
    | some message =>
      IO.eprintln ("Error: " ++ message)
      return 1
