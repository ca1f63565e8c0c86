import Parsing.Cursor.Bytes
import Parsing.Cursor.Text
import Parsing.Cursor.Traced
import Parsing.Text.Quoted

/-!
# Cursors that can be inspected

What a session can tell about a cursor besides reading from it: whether copies move together, how
it and its marks are shown, and the events of marks that it has recorded.
-/

namespace Parsing

/-- A cursor that can be shown. -/
class Inspectable (S : Type) [Cursor S] where
  /-- Whether copies of the cursor move together. -/
  sharing : Sharing
  /-- How the cursor is shown. -/
  describe : S → String
  /-- How a mark is shown. -/
  describePoint : Cursor.Point S → String
  /-- What is still to be read, where that is at hand. -/
  suffix? : S → Option String
  /-- The events of marks recorded so far, oldest first, which are then forgotten. -/
  takeEvents : S → List MarkEvent × S

namespace TextCursor

/-- How a text cursor is shown. -/
def describe (c : TextCursor) : String :=
  s!"StringStream \x7b text: {Text.quoteText c.document}, offset: {c.offset}, " ++
    s!"position: {c.position} \x7d"

/-- How a mark of a text cursor is shown. -/
def Point.describe (point : Point) : String :=
  s!"StringResetPoint \x7b offset: {point.offset}, position: {point.position} \x7d"

instance : Inspectable TextCursor where
  sharing := .separate
  describe := describe
  describePoint := Point.describe
  suffix? c := some c.remaining
  takeEvents c := ([], c)

end TextCursor

namespace ByteCursor

/-- How a cursor over bytes is shown. -/
def describe (c : ByteCursor) : String :=
  s!"IoStream \x7b position: {c.position}, byte_offset: {c.byteOffset}, " ++
    s!"failed: {c.failed}, .. \x7d"

/-- How a mark of a cursor over bytes is shown. -/
def Point.describe (point : Point) : String :=
  s!"IoResetPoint \x7b byte_offset: {point.byteOffset}, position: {point.position} \x7d"

instance : Inspectable ByteCursor where
  sharing := .shared
  describe := describe
  describePoint := Point.describe
  suffix? _ := none
  takeEvents c := ([], c)

end ByteCursor

namespace TracedCursor

variable {S : Type} [Cursor S] [Inspectable S]

instance : Inspectable (TracedCursor S) where
  sharing := Inspectable.sharing S
  describe c := s!"LogStream({Inspectable.describe c.inner})"
  describePoint point := Inspectable.describePoint point.inner
  suffix? _ := none
  takeEvents c := (c.events, .ofCursor c.inner)

end TracedCursor

end Parsing
