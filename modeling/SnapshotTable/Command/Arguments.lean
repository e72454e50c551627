import SnapshotTable.Command.Demo
import SnapshotTable.Text.Decimal

/-!
Commands as they are given on a command line: the command's name, then options in any order, each
followed by its value, and at most one plain argument.
-/

namespace SnapshotTable

set_option autoImplicit false

inductive Command where
  | encode (readPointer writePointer : UInt64) (excluded : List UInt64) (format : Command.Format)
  | decode (descriptor : String) (format : Command.Format)
  | demo (scenario : Command.Scenario) (format : Command.Format)
  | version
deriving DecidableEq

namespace Command

def versionText : String := "TxTable CLI v0.3.0\nTxTable Core v0.3.0\n"

def run : Command → Outcome
  | .encode readPointer writePointer excluded format =>
    printDescriptor readPointer writePointer excluded format
  | .decode descriptor format => printTransaction descriptor format
  | .demo scenario format => printDemo scenario format
  | .version => { printed := versionText }

structure Arguments where
  options : List (String × String) := []
  plain : List String := []

namespace Arguments

def longNames : List (String × String) :=
  [("-r", "--read-pointer"), ("-w", "--write-pointer"), ("-e", "--exclude"), ("-f", "--format"),
    ("-s", "--scenario")]

def longName (option : String) : String := (longNames.lookup option).getD option

def collect : List String → Except String Arguments
  | [] => .ok {}
  | argument :: rest =>
    if argument = "-v" ∨ argument = "--verbose" then collect rest
    else if longNames.any (·.2 == longName argument) then
      match rest with
      | [] => .error ("a value is required for " ++ longName argument)
      | value :: rest => do
        let others ← collect rest
        return { others with options := (longName argument, value) :: others.options }
    else if argument.startsWith "-" then .error ("unexpected argument " ++ argument)
    else do
      let others ← collect rest
      return { others with plain := argument :: others.plain }

def value? (arguments : Arguments) (option : String) : Option String :=
  arguments.options.lookup option

def pointer (text : String) : Except String UInt64 :=
  match Text.Decimal.read? text.toList with
  | some number => .ok (UInt64.ofNat number)
  | none => .error ("no number of 64 bits: " ++ text)

def required (arguments : Arguments) (option : String) : Except String UInt64 :=
  match arguments.value? option with
  | some text => pointer text
  | none => .error ("missing option " ++ option)

/-- The excluded versions of all options of that name, each a list with commas. -/
def excluded (arguments : Arguments) : Except String (List UInt64) :=
  ((arguments.options.filter (·.1 == "--exclude")).flatMap fun option =>
    option.2.splitOn ",").mapM pointer

def format (arguments : Arguments) : Except String Format :=
  match arguments.value? "--format" with
  | none | some "text" => .ok .text
  | some "json" => .ok .json
  | some other => .error ("unknown format " ++ other)

def scenario (arguments : Arguments) : Except String Scenario :=
  match arguments.value? "--scenario" with
  | none | some "all" => .ok .all
  | some "commit" => .ok .commit
  | some "rollback" => .ok .rollback
  | some other => .error ("unknown scenario " ++ other)

end Arguments

def parse : List String → Except String Command
  | [] => .error "a command is required: encode, decode, demo or version"
  | name :: rest => do
    let arguments ← Arguments.collect rest
    match name, arguments.plain with
    | "encode", [] =>
      return .encode (← arguments.required "--read-pointer")
        (← arguments.required "--write-pointer") (← arguments.excluded) (← arguments.format)
    | "decode", [descriptor] => return .decode descriptor (← arguments.format)
    | "demo", [] => return .demo (← arguments.scenario) (← arguments.format)
    | "version", [] => return .version
    | _, _ => throw ("cannot run command " ++ name)

end Command

end SnapshotTable
