import Parsing.Json.Grammar
import Parsing.Run

/-!
# JSON documents

A document is a value with white space around it. Unless the options allow more input, the document
ends there.
-/

namespace Parsing.Json

/-- How documents are read. -/
structure Options where
  /-- Whether other input may follow the document; it is left alone. -/
  allowTrailingInput : Bool := false
  deriving Repr, DecidableEq

/-- A value with white space around it. -/
def document (options : Options) : Parser Rule Value :=
  let surrounded := Parser.enclosedBy value whitespaces whitespaces
  if options.allowTrailingInput then surrounded else .left surrounded .endOfFile

/-- Read a document from a cursor, in at most `budget` steps. -/
def parse {S : Type} [Cursor S] (options : Options) (budget : Nat) (c : S) :
    Option (Except Error Value) :=
  (Parsing.parse grammar budget (document options) c).map fun (outcome, _) =>
    outcome.map Parsed.value

end Parsing.Json
