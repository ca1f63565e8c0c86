import Parsing.Cursor

/-!
# Cursors over a text

The whole document is in memory. Copies are independent, and returning to a mark only puts back
what the mark kept. A text never faults.
-/

namespace Parsing

/-- A cursor over a text: what is still to be read, and how many bytes and characters are not. -/
structure TextCursor where
  document : String
  rest : List Char
  offset : Nat
  position : Nat
  deriving Repr, DecidableEq

namespace TextCursor

/-- A mark of a text cursor. -/
structure Point where
  rest : List Char
  offset : Nat
  position : Nat
  deriving Repr, DecidableEq

/-- A cursor at the start of `text`. -/
def ofText (text : String) : TextCursor := ⟨text, text.toList, 0, 0⟩

/-- The character at the cursor. -/
def peek (c : TextCursor) : Option Char := c.rest.head?

/-- Consume the character at the cursor. -/
def read (c : TextCursor) : Option Char × TextCursor :=
  match c.rest with
  | [] => (none, c)
  | char :: rest =>
    (some char,
      { c with rest := rest, offset := c.offset + char.utf8Size, position := c.position + 1 })

/-- Everything from the cursor to the end. -/
def remaining (c : TextCursor) : String := String.ofList c.rest

/-- Capture where the cursor is. -/
def mark (c : TextCursor) : Point := ⟨c.rest, c.offset, c.position⟩

/-- Return to a mark. -/
def restore (c : TextCursor) (point : Point) : TextCursor :=
  { c with rest := point.rest, offset := point.offset, position := point.position }

instance : Cursor TextCursor where
  Point := Point
  peek c := (c.peek, c)
  read := read
  position := position
  remaining c := (c.remaining, c)
  mark c := (c.mark, c)
  restore := restore
  release c _ := c
  sourceMap c := (SourceMap.ofText c.document, c)
  takeFault c := (none, c)

end TextCursor

end Parsing
