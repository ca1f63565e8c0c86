import Parsing.Bytes.Reader
import Parsing.Bytes.Utf8
import Parsing.Cursor

/-!
# Cursors over bytes

The document is UTF-8 that is read from a source when it is wanted. The reader may be ahead of the
cursor by one character, which has been looked at and not consumed. Returning to a mark moves the
reader.

A fault, be it of the source or of the encoding, makes the document end where it was met. The first
fault is kept until it is taken; from the fault on the cursor finds nothing, while marks can still
be restored.
-/

namespace Parsing

open Bytes

/-- A cursor over the bytes of a source; offsets count from where the source stood at first. -/
structure ByteCursor where
  reader : Reader
  /-- The offset of the next byte that the reader hands out. -/
  physical : Nat
  /-- The offset of the cursor. -/
  byteOffset : Nat
  position : Nat
  /-- The character at the cursor, if it has been looked at. -/
  peeked : Option Char
  failed : Bool
  /-- The first fault that has not been taken. -/
  fault : Option Fault
  /-- Every fault met so far, newest first, taken or not. -/
  trail : List Fault

namespace ByteCursor

/-- How many bytes the buffer of a reader has room for, unless told otherwise. -/
def defaultCapacity : Nat := 8192

/-- A cursor whose document starts where the source stands. -/
def ofSource (source : Source) (capacity : Nat) : ByteCursor :=
  ⟨.ofSource source capacity, 0, 0, 0, none, false, none, []⟩

/-- A cursor over the UTF-8 form of a text. -/
def ofText (text : String) : ByteCursor :=
  ofSource (.ofBytes text.toUTF8.data) defaultCapacity

/-- A mark of a cursor over bytes. -/
structure Point where
  byteOffset : Nat
  position : Nat
  deriving Repr, DecidableEq

/-- Meet a fault: the document ends here, the fault goes on record, and it is kept unless there is
one already. -/
def fail (c : ByteCursor) (fault : Fault) : ByteCursor :=
  { c with failed := true, fault := c.fault.or (some fault), trail := fault :: c.trail }

/-- The faults met so far, oldest first. -/
def faults (c : ByteCursor) : List Fault := c.trail.reverse

/-- The next byte, none at the end and at a fault. -/
def nextByte (c : ByteCursor) : Option UInt8 × ByteCursor :=
  match c.reader.next with
  | (.ok (some byte), reader) => (some byte, { c with reader, physical := c.physical + 1 })
  | (.ok none, reader) => (none, { c with reader })
  | (.error fault, reader) => (none, { c with reader }.fail fault)

/-- The next `count` bytes, none if the document ends before. -/
def nextBytes : Nat → ByteCursor → Option (List UInt8) × ByteCursor
  | 0, c => (some [], c)
  | count + 1, c =>
    match c.nextByte with
    | (none, c) => (none, c)
    | (some byte, c) =>
      match nextBytes count c with
      | (none, c) => (none, c)
      | (some rest, c) => (some (byte :: rest), c)

/-- Read the next character from the reader. -/
def decode (c : ByteCursor) : Option Char × ByteCursor :=
  if c.failed then (none, c)
  else
    match c.nextByte with
    | (none, c) => (none, c)
    | (some lead, c) =>
      match Utf8.following? lead with
      | none => (none, c.fail .malformedText)
      | some count =>
        match c.nextBytes count with
        | (none, c) => (none, if c.failed then c else c.fail .malformedText)
        | (some rest, c) =>
          match Utf8.decode? (lead :: rest) with
          | some char => (some char, c)
          | none => (none, c.fail .malformedText)

/-- A byte that is handed out was unread before. -/
theorem unread_nextByte {c after : ByteCursor} {byte : UInt8}
    (h : c.nextByte = (some byte, after)) : after.reader.unread < c.reader.unread := by
  unfold nextByte at h
  split at h
  · simp only [Prod.mk.injEq, Option.some.injEq] at h
    obtain ⟨rfl, rfl⟩ := h
    exact Reader.unread_next ‹_›
  · simp at h
  · simp at h

/-- Bytes that are handed out were unread before. -/
theorem unread_nextBytes {count : Nat} {c after : ByteCursor} {bytes : List UInt8}
    (h : c.nextBytes count = (some bytes, after)) : after.reader.unread ≤ c.reader.unread := by
  induction count generalizing c bytes with
  | zero => simp_all [nextBytes]
  | succ count ih =>
    unfold nextBytes at h
    split at h
    · simp at h
    · rename_i found
      split at h
      · simp at h
      · rename_i more
        simp only [Prod.mk.injEq, Option.some.injEq] at h
        obtain ⟨rfl, rfl⟩ := h
        exact Nat.le_of_lt (Nat.lt_of_le_of_lt (ih more) (unread_nextByte found))

/-- Every character takes at least one byte. -/
theorem unread_decode {c after : ByteCursor} {char : Char} (h : c.decode = (some char, after)) :
    after.reader.unread < c.reader.unread := by
  unfold decode at h
  split at h
  · simp at h
  · split at h
    · simp at h
    · rename_i lead
      split at h
      · simp at h
      · split at h
        · simp at h
        · rename_i rest
          split at h
          · simp only [Prod.mk.injEq, Option.some.injEq] at h
            obtain ⟨rfl, rfl⟩ := h
            exact Nat.lt_of_le_of_lt (unread_nextBytes rest) (unread_nextByte lead)
          · simp at h

/-- All further characters of the document, after those already decoded. -/
def decodeAll (c : ByteCursor) (newestFirst : List Char) : List Char × ByteCursor :=
  match _h : c.decode with
  | (none, c) => (newestFirst.reverse, c)
  | (some char, c) => decodeAll c (char :: newestFirst)
  termination_by c.reader.unread
  decreasing_by exact unread_decode _h

/-- The character at the cursor. -/
def peek (c : ByteCursor) : Option Char × ByteCursor :=
  match c.peeked with
  | some char => (some char, c)
  | none =>
    let (char, c) := c.decode
    (char, { c with peeked := char })

/-- Consume the character at the cursor. -/
def read (c : ByteCursor) : Option Char × ByteCursor :=
  let (char, c) :=
    match c.peeked with
    | some char => (some char, { c with peeked := none })
    | none => c.decode
  match char with
  | none => (none, c)
  | some char =>
    (some char,
      { c with byteOffset := c.byteOffset + char.utf8Size, position := c.position + 1 })

/-- Move the reader to an offset. A failing move is a fault; the offset is taken over all the same. -/
def seekTo (c : ByteCursor) (offset : Nat) : ByteCursor :=
  let c :=
    if offset = c.physical then c
    else
      match c.reader.moveBy ((offset : Int) - c.physical) with
      | (.ok (), reader) => { c with reader }
      | (.error fault, reader) => { c with reader }.fail fault
  { c with physical := offset }

/-- Capture where the cursor is. -/
def mark (c : ByteCursor) : Point := ⟨c.byteOffset, c.position⟩

/-- Return to a mark. -/
def restore (c : ByteCursor) (point : Point) : ByteCursor :=
  { c.seekTo point.byteOffset with
    byteOffset := point.byteOffset, position := point.position, peeked := none }

/-- Everything from the cursor to the end of the document. -/
def remaining (c : ByteCursor) : String × ByteCursor :=
  let (chars, after) := c.decodeAll []
  (String.ofList (c.peeked.toList ++ chars), after.restore c.mark)

/-- The newlines of the whole document, which is read again from its start. -/
def sourceMap (c : ByteCursor) : SourceMap × ByteCursor :=
  let (chars, after) := (c.restore ⟨0, 0⟩).decodeAll []
  (.ofChars chars, after.restore c.mark)

/-- The first fault that has not been taken, which is now taken. -/
def takeFault (c : ByteCursor) : Option Fault × ByteCursor := (c.fault, { c with fault := none })

instance : Cursor ByteCursor where
  Point := Point
  peek := peek
  read := read
  position := position
  remaining := remaining
  mark c := (c.mark, c)
  restore := restore
  release c _ := c
  sourceMap := sourceMap
  takeFault := takeFault

end ByteCursor

end Parsing
