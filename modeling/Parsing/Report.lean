import Parsing.Fault
import Parsing.Result
import Parsing.SourceMap

/-!
# Reports

What is told to someone who asked for a document to be parsed and did not get a value: the failures
with their lines and columns, a fault of the source, or why the run stopped.
-/

namespace Parsing

/-- A failure with the line and column of its position. -/
structure LocatedFailure where
  message : String
  position : Nat
  location : Location
  deriving Repr, DecidableEq

namespace LocatedFailure

/-- Look up where a failure is. -/
def ofFailure (map : SourceMap) (failure : Failure) : LocatedFailure :=
  ⟨failure.message, failure.position, map.locate failure.position⟩

/-- The text of a located failure. -/
def render (failure : LocatedFailure) : String :=
  s!"{failure.message} @ {failure.location.render}"

end LocatedFailure

namespace Failures

/-- All failures with their lines and columns, oldest first. -/
def locate (failures : Failures) (map : SourceMap) : List LocatedFailure :=
  failures.toList.map (LocatedFailure.ofFailure map)

end Failures

/-- Why a document has no value. -/
inductive Error where
  | mismatch (failures : List LocatedFailure)
  | fault (cause : Fault)
  | stopped (why : Stop)
  deriving Repr, DecidableEq

namespace Error

/-- The text of located failures: alternatives are joined by `OR`. -/
def renderFailures (failures : List LocatedFailure) : String :=
  " OR ".intercalate (failures.map LocatedFailure.render)

/-- The text of an error. -/
def message : Error → String
  | mismatch failed => renderFailures failed
  | fault cause => s!"IO error during parsing: {cause.message}"
  | stopped why => why.message

end Error

end Parsing
