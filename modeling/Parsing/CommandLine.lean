import Parsing.Cursor.Bytes
import Parsing.Cursor.Text
import Parsing.Json.Document
import Parsing.Json.Printer

/-!
# The command line

The command reads one JSON document and prints it in compact form. The document is a file, read
piece by piece, or else standard input, which is read as a whole and has to be UTF-8. Errors go to
the error output; the command ends normally all the same.
-/

namespace Parsing.CommandLine

/-- The document of a call: standard input, or a file that could be opened or not. -/
inductive Input where
  | standard (bytes : ByteArray)
  | file (contents : Except Fault ByteArray)

/-- What the command writes. -/
structure Output where
  output : String
  errors : String
  deriving Repr, DecidableEq

/-- Standard input is not UTF-8. -/
def malformedInput : Fault := ⟨.invalidData, "stream did not contain valid UTF-8"⟩

/-- A fault of the operating system, by its text and number. -/
def systemFault (kind : FaultKind) (text : String) (number : Nat) : Fault :=
  ⟨kind, s!"{text} (os error {number})"⟩

/-- A file does not exist. -/
def missingFile : Fault := systemFault .notFound "No such file or directory" 2

/-- A bound on the steps of a call that no document reaches. -/
def stepBudget : Nat := Nat.pow 2 62

/-- Read the document of a call. -/
def read (budget : Nat) : Input → Option (Except Error Json.Value)
  | .standard bytes =>
    match String.fromUTF8? bytes with
    | some text => Json.parse {} budget (TextCursor.ofText text)
    | none => some (.error (.fault malformedInput))
  | .file (.ok contents) =>
    Json.parse {} budget (ByteCursor.ofSource (.ofBytes contents.data) ByteCursor.defaultCapacity)
  | .file (.error fault) => some (.error (.fault fault))

/-- What a call writes for its outcome. -/
def report : Except Error Json.Value → Output
  | .ok value => ⟨value.render ++ "\n", ""⟩
  | .error error => ⟨"", s!"error: {error.message}\n"⟩

/-- Carry out a call. -/
def run (budget : Nat) (input : Input) : Option Output := (read budget input).map report

end Parsing.CommandLine
