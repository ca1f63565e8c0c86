import Parsing.Fault
import Parsing.SourceMap

/-!
# Cursors

Parsers see a document only through a cursor. A cursor can look at the next character, consume it,
and tell how many characters it has consumed. A mark captures where the cursor is; it is used up
either by restoring it or by releasing it. Marks are meant to be used up in the reverse order of
their creation. Every operation returns the cursor as it is afterwards.
-/

namespace Parsing

/-- Reading a document character by character, with marks to return to. -/
class Cursor (S : Type) where
  /-- What a mark keeps. -/
  Point : Type
  /-- The character at the cursor, `none` at the end; it is not consumed. -/
  peek : S → Option Char × S
  /-- Consume the character at the cursor, `none` at the end. -/
  read : S → Option Char × S
  /-- How many characters have been consumed since the start of the document. -/
  position : S → Nat
  /-- Everything from the cursor to the end; it is not consumed. -/
  remaining : S → String × S
  /-- Capture where the cursor is. -/
  mark : S → Point × S
  /-- Return to a mark. -/
  restore : S → Point → S
  /-- Give up a mark without returning to it. -/
  release : S → Point → S
  /-- The source map of the whole document, wherever the cursor is. -/
  sourceMap : S → SourceMap × S
  /-- The fault met while reading, if any; it is reported once. -/
  takeFault : S → Option Fault × S

/-- Whether copies of a cursor move on their own or together. -/
inductive Sharing where
  | separate
  | shared
  deriving Repr, DecidableEq

end Parsing
