import Parsing.Cursor

/-!
# Traced cursors

A traced cursor behaves like the cursor inside it and keeps a record of what happens to marks.
-/

namespace Parsing

/-- Something that happened to a mark. -/
inductive MarkEvent where
  /-- A mark was made at this position. -/
  | made (place : Nat)
  /-- The cursor went from one position to the position of a mark. -/
  | restored (origin target : Nat)
  /-- A mark made at this position was given up. -/
  | released (place : Nat)
  deriving Repr, DecidableEq

/-- The text of an event. -/
def MarkEvent.render : MarkEvent → String
  | made place => s!"mark {place}"
  | restored origin target => s!"reset {origin} to {target}"
  | released place => s!"destroy {place}"

/-- A cursor with a record of the events of its marks. -/
structure TracedCursor (S : Type) where
  inner : S
  newestFirst : List MarkEvent

namespace TracedCursor

variable {S : Type}

/-- Start to record. -/
def ofCursor (inner : S) : TracedCursor S := ⟨inner, []⟩

/-- The events so far, oldest first. -/
def events (c : TracedCursor S) : List MarkEvent := c.newestFirst.reverse

/-- A mark of a traced cursor: the mark inside and where it was made. -/
structure Point (P : Type) where
  inner : P
  position : Nat

variable [Cursor S]

instance : Cursor (TracedCursor S) where
  Point := Point (Cursor.Point S)
  peek c :=
    let (char, inner) := Cursor.peek c.inner
    (char, { c with inner })
  read c :=
    let (char, inner) := Cursor.read c.inner
    (char, { c with inner })
  position c := Cursor.position c.inner
  remaining c :=
    let (text, inner) := Cursor.remaining c.inner
    (text, { c with inner })
  mark c :=
    let place := Cursor.position c.inner
    let (point, inner) := Cursor.mark c.inner
    (⟨point, place⟩, ⟨inner, .made place :: c.newestFirst⟩)
  restore c point :=
    ⟨Cursor.restore c.inner point.inner,
      .restored (Cursor.position c.inner) point.position :: c.newestFirst⟩
  release c point := ⟨Cursor.release c.inner point.inner, .released point.position :: c.newestFirst⟩
  sourceMap c :=
    let (map, inner) := Cursor.sourceMap c.inner
    (map, { c with inner })
  takeFault c :=
    let (fault, inner) := Cursor.takeFault c.inner
    (fault, { c with inner })

end TracedCursor

end Parsing
