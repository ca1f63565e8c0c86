import Parsing.Parser.Machine
import Parsing.Report

/-!
# Parsing a document

`parse` runs a parser on a cursor and turns the outcome into a value with the rest of the document,
or into an error. A fault of the source takes precedence over a result, because the end of input
that the parser saw was not the real one; so faults are looked for after the run and once more
after the scan for the rest, or for the newlines, that follows it.
-/

namespace Parsing

/-- A value and the part of the document behind what was matched. -/
structure Parsed (α : Type) where
  value : α
  remaining : String
  deriving Repr, DecidableEq

variable {R : Type → Type} {S : Type} [Cursor S] {α : Type}

/-- Report a fault of the cursor, or else go on. -/
def orFault {β : Type} (c : S) (go : S → Except Error β × S) : Except Error β × S :=
  match Cursor.takeFault c with
  | (some fault, c) => (.error (.fault fault), c)
  | (none, c) => go c

/-- Turn the result of a run into a value with the rest of the document, or into an error. -/
def conclude (c : S) (result : Result α) : Except Error (Parsed α) × S :=
  orFault c fun c =>
    match result with
    | .success value _ =>
      let (remaining, c) := Cursor.remaining c
      orFault c fun c => (.ok ⟨value, remaining⟩, c)
    | .failure failures =>
      let (map, c) := Cursor.sourceMap c
      orFault c fun c => (.error (.mismatch (failures.locate map)), c)

/-- Run a parser on a cursor, for at most `budget` steps, and report; the cursor comes back as it
is left. -/
def parse (grammar : Grammar R) (budget : Nat) (parser : Parser R α) (c : S) :
    Option (Except Error (Parsed α) × S) :=
  match parser.run grammar budget c with
  | none => none
  | some (.stopped why c) => some (.error (.stopped why), c)
  | some (.finished c result) => some (conclude c result)

end Parsing
