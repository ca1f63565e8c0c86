/-!
# Faults

What can go wrong while bytes are read or decoded, as opposed to input that does not match.
-/

namespace Parsing

/-- The kinds of faults that are told apart. -/
inductive FaultKind where
  | other
  | notFound
  | unexpectedEof
  | invalidData
  | invalidInput
  deriving Repr, DecidableEq

/-- A fault of the source of a document: its kind and what it says. -/
structure Fault where
  kind : FaultKind
  message : String
  deriving Repr, DecidableEq

namespace Fault

/-- The bytes read are not well-formed UTF-8. -/
def malformedText : Fault := ⟨.invalidData, "input is not valid UTF-8"⟩

/-- A move to a place before the first byte. -/
def seekBeforeStart : Fault :=
  ⟨.invalidInput, "invalid seek to a negative or overflowing position"⟩

end Fault

end Parsing
