import Parsing.Cursor.Bytes
import Parsing.Proofs.Bytes.Reading

/-!
# Where a byte cursor stands

Reading bytes and decoding characters moves the reader of a cursor over bytes and not the cursor. All the
while, also when faults are met, the reader knows which offset its next byte has. So a return to a mark
needs nothing but a source whose moves do not fail, whatever has been met before.
-/

namespace Parsing

namespace Bytes

/-- The next byte that a reader hands out has this offset, counted from where a source stood. Nothing is
said about what the byte is. -/
structure Reader.PlacedAt (origin : Source) (offset : Nat) (r : Reader) : Prop where
  moveFault : r.source.moveFault = origin.moveFault
  consumed_le : r.consumed ≤ r.buffer.size
  place : r.source.position + r.consumed = origin.position + offset + r.buffer.size

namespace Source

/-- A read moves a source by as many bytes as it delivers. -/
theorem transfer_place (s : Source) (capacity : Nat) :
    ((s.transfer capacity).2).moveFault = s.moveFault ∧
      match s.transfer capacity with
      | (.ok delivered, after) => after.position = s.position + delivered.size
      | (.error _, after) => after.position = s.position := by
  rw [transfer]
  cases s.fault? with
  | some fault => exact ⟨rfl, rfl⟩
  | none => exact ⟨rfl, rfl⟩

end Source

namespace Reader

variable {origin : Source} {offset : Nat} {r : Reader}

/-- A new reader is at the start. -/
theorem placedAt_ofSource (origin : Source) (capacity : Nat) :
    PlacedAt origin 0 (ofSource origin capacity) :=
  ⟨rfl, Nat.le_refl _, rfl⟩

/-- A byte of the buffer is at the offset, and the next one behind it. -/
theorem PlacedAt.takeBuffered (h : r.PlacedAt origin offset) :
    match r.takeBuffered with
    | (some _, after) => after.PlacedAt origin (offset + 1)
    | (none, after) => after = r ∧ r.buffer.size ≤ r.consumed := by
  have hplace := h.place
  unfold Reader.takeBuffered
  cases hbyte : r.buffer[r.consumed]? with
  | some byte =>
    obtain ⟨left, -⟩ := Array.getElem?_eq_some_iff.1 hbyte
    exact ⟨h.moveFault, left, by simp only; omega⟩
  | none => exact ⟨rfl, Array.getElem?_eq_none_iff.1 hbyte⟩

/-- Filling a buffer that is used up keeps the offset of the next byte, also if it fails. -/
theorem PlacedAt.refillAfter (h : r.PlacedAt origin offset) (used : r.buffer.size ≤ r.consumed)
    (pending : Nat) : (r.refillAfter pending).2.PlacedAt origin offset := by
  have hplace := h.place
  have hconsumed := h.consumed_le
  induction pending generalizing r with
  | zero =>
    obtain ⟨hmoveFault, hposition⟩ := r.source.transfer_place r.capacity
    rw [Reader.refillAfter]
    rcases htransfer : r.source.transfer r.capacity with ⟨fault | delivered, after⟩ <;>
      rw [htransfer] at hmoveFault hposition
    · refine ⟨hmoveFault.trans h.moveFault, Nat.le_refl _, ?_⟩
      simp only [emptied, List.size_toArray, List.length_nil]
      omega
    · exact ⟨hmoveFault.trans h.moveFault, Nat.zero_le _, by simp only; omega⟩
  | succ pending ih =>
    have emptied : PlacedAt origin offset (r.emptied { r.source with pending }) :=
      ⟨h.moveFault, Nat.le_refl _, by simp only [Reader.emptied, List.size_toArray, List.length_nil]; omega⟩
    exact ih emptied (Nat.le_refl _) emptied.place emptied.consumed_le

/-- Handing out a byte moves the reader by one, and nothing else moves it. -/
theorem PlacedAt.next (h : r.PlacedAt origin offset) :
    match r.next with
    | (.ok (some _), after) => after.PlacedAt origin (offset + 1)
    | (_, after) => after.PlacedAt origin offset := by
  have taken := h.takeBuffered
  unfold Reader.next
  rcases hbuffered : r.takeBuffered with ⟨_ | byte, before⟩ <;> rw [hbuffered] at taken
  · obtain ⟨rfl, used⟩ := taken
    have refilled : (before.refill).2.PlacedAt origin offset := h.refillAfter used _
    rcases hrefill : before.refill with ⟨fault | _, filled⟩ <;> rw [hrefill] at refilled <;>
      simp only [hrefill]
    · exact refilled
    · have again := refilled.takeBuffered
      rcases hbuffered : filled.takeBuffered with ⟨_ | byte, after⟩ <;> rw [hbuffered] at again
      · rw [again.1]
        exact refilled
      · exact again
  · exact taken

/-- A source whose moves do not fail can always be moved to an offset. -/
theorem PlacedAt.moveBy (h : r.PlacedAt origin offset) (moves : ∀ count, origin.moveFault count = none)
    (target : Nat) : ∃ after, r.moveBy ((target : Int) - offset) = (.ok (), after) ∧
      after.PlacedAt origin target := by
  have hplace := h.place
  have hconsumed := h.consumed_le
  by_cases buffered : 0 ≤ (r.consumed : Int) + ((target : Int) - offset) ∧
      (r.consumed : Int) + ((target : Int) - offset) ≤ r.buffer.size
  · exact ⟨{ r with consumed := ((r.consumed : Int) + ((target : Int) - offset)).toNat },
      by simp only [Reader.moveBy, if_pos buffered], h.moveFault, by simp only; omega,
      by simp only; omega⟩
  · have hfault : r.source.moveFault r.source.moves = none := by rw [h.moveFault, moves]
    simp only [Reader.moveBy, if_neg buffered, Source.moveBy, hfault]
    rw [if_neg (by omega)]
    exact ⟨_, rfl, h.moveFault, Nat.le_refl _, by simp only [List.size_toArray, List.length_nil]; omega⟩

end Reader

end Bytes

open Bytes

namespace ByteCursor

/-- The cursor knows where its reader stands. -/
def Placed (origin : Source) (c : ByteCursor) : Prop := c.reader.PlacedAt origin c.physical

/-- From `c` to `after` the reader may have moved and faults may have been met, but the cursor is where it
was. -/
structure Stays (c after : ByteCursor) : Prop where
  position : after.position = c.position
  byteOffset : after.byteOffset = c.byteOffset
  peeked : after.peeked = c.peeked
  placed : ∀ origin, c.Placed origin → after.Placed origin

variable {c d e : ByteCursor} {origin : Source}

/-- A new cursor knows where its reader stands. -/
theorem placed_ofSource (origin : Source) (capacity : Nat) : (ofSource origin capacity).Placed origin :=
  Reader.placedAt_ofSource origin capacity

/-- A cursor to which nothing is done stays. -/
theorem Stays.refl (c : ByteCursor) : c.Stays c := ⟨rfl, rfl, rfl, fun _ h => h⟩

/-- A cursor that stays twice stays. -/
theorem Stays.trans (first : c.Stays d) (second : d.Stays e) : c.Stays e :=
  ⟨second.position.trans first.position, second.byteOffset.trans first.byteOffset,
    second.peeked.trans first.peeked, fun origin h => second.placed origin (first.placed origin h)⟩

/-- A cursor that meets a fault stays where it is. -/
theorem Stays.fail (h : c.Stays d) (fault : Fault) : c.Stays (d.fail fault) :=
  ⟨h.position, h.byteOffset, h.peeked, h.placed⟩

/-- The cursor stays while a byte is handed out. -/
theorem stays_nextByte (c : ByteCursor) : c.Stays c.nextByte.2 := by
  have next {origin : Source} (h : c.Placed origin) := Reader.PlacedAt.next h
  unfold nextByte
  rcases hnext : c.reader.next with ⟨fault | _ | byte, reader⟩ <;> rw [hnext] at next <;>
    exact ⟨rfl, rfl, rfl, fun origin h => next h⟩

/-- The cursor stays while bytes are handed out. -/
theorem stays_nextBytes (count : Nat) (c : ByteCursor) : c.Stays (c.nextBytes count).2 := by
  induction count generalizing c with
  | zero => exact .refl c
  | succ count ih =>
    have first := stays_nextByte c
    rw [nextBytes]
    rcases hfirst : c.nextByte with ⟨_ | byte, d⟩ <;> rw [hfirst] at first
    · exact first
    · have rest := first.trans (ih d)
      rcases hrest : d.nextBytes count with ⟨_ | bytes, e⟩ <;> rw [hrest] at rest
      · simp only [hrest]
        exact rest
      · simp only [hrest]
        exact rest

/-- The cursor stays while a character is decoded. -/
theorem stays_decode (c : ByteCursor) : c.Stays c.decode.2 := by
  have first := stays_nextByte c
  unfold decode
  split
  · exact .refl c
  · split
    · next ran =>
      rw [ran] at first
      exact first
    · next lead after ran =>
      rw [ran] at first
      split
      · exact first.fail _
      · next count _ =>
        have rest := first.trans (stays_nextBytes count after)
        split
        · next ran =>
          rw [ran] at rest
          split
          · exact rest
          · exact rest.fail _
        · next ran =>
          rw [ran] at rest
          split
          · exact rest
          · exact rest.fail _

/-- The cursor stays while everything that is left is decoded. -/
theorem stays_decodeAll (c : ByteCursor) (newestFirst : List Char) :
    c.Stays (c.decodeAll newestFirst).2 := by
  fun_induction decodeAll c newestFirst with
  | case1 c newestFirst after ran =>
    have first := stays_decode c
    rwa [ran] at first
  | case2 c newestFirst after char ran ih =>
    have first := stays_decode c
    rw [ran] at first
    exact first.trans ih

/-- Looking at the character at the cursor does not move the cursor. -/
theorem position_peek (c : ByteCursor) : c.peek.2.position = c.position := by
  unfold peek
  split
  · rfl
  · exact (stays_decode c).position

/-- Reading moves the cursor by one character, or not at all. -/
theorem position_le_read (c : ByteCursor) : c.position ≤ c.read.2.position := by
  unfold read
  cases c.peeked with
  | some char => exact Nat.le_succ _
  | none =>
    have stays := (stays_decode c).position
    rcases hdecode : c.decode with ⟨_ | char, after⟩ <;> rw [hdecode] at stays
    · exact Nat.le_of_eq stays.symm
    · exact Nat.le_trans (Nat.le_of_eq stays.symm) (Nat.le_succ _)

/-- Going to a place, whatever is to hold of the reader afterwards. -/
theorem restore_eq {P : Nat → Reader → Prop} (point : Point) (here : P c.physical c.reader)
    (there : ∃ after, c.reader.moveBy ((point.byteOffset : Int) - c.physical) = (.ok (), after) ∧
      P point.byteOffset after) :
    ∃ reader, P point.byteOffset reader ∧ c.restore point = { c with
      reader, physical := point.byteOffset, byteOffset := point.byteOffset, position := point.position
      peeked := none } := by
  unfold ByteCursor.restore seekTo
  split
  · next same => exact ⟨c.reader, same ▸ here, rfl⟩
  · obtain ⟨after, moved, holds⟩ := there
    simp only [moved]
    exact ⟨after, holds, rfl⟩

end ByteCursor

end Parsing
