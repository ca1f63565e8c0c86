/-!
# Source maps

Positions are counted in characters from the start of a document. A source map lists the newlines
of a document and turns a position into a line, counted from one, and a column, counted from zero.
A newline belongs to the line that it ends. Positions past the end are on the last line.
-/

namespace Parsing

/-- A line, counted from one, and a column, counted from zero. -/
structure Location where
  line : Nat
  column : Nat
  deriving Repr, DecidableEq

namespace Location

/-- Locations are ordered by line and then by column. -/
def compare (a b : Location) : Ordering :=
  (Ord.compare a.line b.line).then (Ord.compare a.column b.column)

instance : Ord Location := ⟨compare⟩

instance : LT Location := ltOfOrd

/-- The text of a location. -/
def render (location : Location) : String :=
  s!"L: {location.line}, C: {location.column}"

end Location

/-- The positions of all newlines of a document, in ascending order. -/
structure SourceMap where
  newlines : Array Nat
  deriving Repr, DecidableEq

namespace SourceMap

/-- The positions of the newlines of `chars`, the first character being at `position`. -/
def newlinesFrom (position : Nat) : List Char → List Nat
  | [] => []
  | c :: rest =>
    if c = '\n' then position :: newlinesFrom (position + 1) rest else newlinesFrom (position + 1) rest

/-- The source map of a document given by its characters. -/
def ofChars (chars : List Char) : SourceMap := ⟨(newlinesFrom 0 chars).toArray⟩

/-- The source map of a text. -/
def ofText (text : String) : SourceMap := ofChars text.toList

/-- Binary search between `low` and `high`: the first index whose newline is not before `position`. -/
def search (newlines : Array Nat) (position low high : Nat) : Nat :=
  if h : low < high then
    let middle := low + (high - low) / 2
    if newlines.getD middle 0 < position then search newlines position (middle + 1) high
    else search newlines position low middle
  else low
  termination_by high - low
  decreasing_by all_goals omega

/-- How many newlines stand before `position`. -/
def precedingNewlines (map : SourceMap) (position : Nat) : Nat :=
  search map.newlines position 0 map.newlines.size

/-- The location of the character at `position`. -/
def locate (map : SourceMap) (position : Nat) : Location :=
  match map.precedingNewlines position with
  | 0 => ⟨1, position⟩
  | n + 1 => ⟨n + 2, position - map.newlines.getD n 0 - 1⟩

end SourceMap

end Parsing
