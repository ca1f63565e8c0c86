import Parsing.CommandLine

/-!
# The program

Reads the document named by the first argument, or standard input without one.
-/

namespace Parsing.CommandLine

/-- The fault that stands for a file that cannot be opened or read. -/
def faultOfError : IO.Error → Fault
  | .noFileOrDirectory .. => missingFile
  | .permissionDenied .. => systemFault .other "Permission denied" 13
  | .inappropriateType .. => systemFault .other "Is a directory" 21
  | error => ⟨.other, toString error⟩

/-- The input of a call with these arguments. -/
def inputOfArguments : List String → IO Input
  | [] => do
    let bytes ← (← IO.getStdin).readBinToEnd
    return .standard bytes
  | path :: _ => do
    match ← (IO.FS.readBinFile path).toBaseIO with
    | .ok contents => return .file (.ok contents)
    | .error error => return .file (.error (faultOfError error))

end Parsing.CommandLine

open Parsing.CommandLine in
/-- Carry out one call of the program. -/
def main (arguments : List String) : IO UInt32 := do
  match run stepBudget (← inputOfArguments arguments) with
  | some result =>
    (← IO.getStdout).putStr result.output
    (← IO.getStderr).putStr result.errors
  | none => pure ()
  return 0
