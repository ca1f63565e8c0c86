import Parsing.Proofs.Run.Exhausting
import Parsing.Proofs.Run.Transcripts

/-!
# How a byte cursor stands for a place in the document

A cursor over bytes keeps four places: that of the source behind the buffer, that of the next byte in the buffer,
the offset up to which bytes have been decoded, and its own. Operations move them one after the other, and any of
them may break off where a fault is met. Behind each operation they fit together again, or the cursor has failed:
the buffer is a piece of the source, the next byte is the one at the offset, and what lies between the offset and
the cursor is just the character that has been looked at.

So it is whatever the bytes are, however they come in pieces, and whatever goes wrong with reads and moves.
-/

namespace Parsing

open Bytes

namespace Bytes

variable {origin : Source} {r : Reader} {offset : Nat}

/-! ## What the buffer holds -/

/-- What can be read of a source is at the beginning of its bytes. -/
theorem Source.available_prefix (s : Source) : s.available <+: s.bytes.toList := by
  unfold available
  split
  · exact List.prefix_rfl
  · exact List.take_prefix _ _

/-- A piece of what can be read is a piece of the bytes. -/
theorem Source.take_drop_bytes (s : Source) {start count : Nat}
    (h : ((s.available.drop start).take count).length = count) :
    (s.bytes.toList.drop start).take count = (s.available.drop start).take count := by
  obtain ⟨more, hmore⟩ := s.available_prefix
  rw [List.length_take] at h
  rw [← hmore, List.drop_append, List.take_append_of_le_length (by omega)]

/-- What can be read at some place is the byte there. -/
theorem Source.getElem?_bytes (s : Source) {place : Nat} {byte : UInt8} (h : s.available[place]? = some byte) :
    s.bytes[place]? = some byte := by
  obtain ⟨more, hmore⟩ := s.available_prefix
  obtain ⟨inside, -⟩ := List.getElem?_eq_some_iff.1 h
  rw [← Array.getElem?_toList, ← hmore, List.getElem?_append_left inside, h]

/-- The next byte that a reader delivers is at this place of the source, and its buffer is a piece of the source
around that place. -/
structure Reader.DeliversAt (origin : Source) (place : Nat) (r : Reader) : Prop where
  bytes : r.source.bytes = origin.bytes
  /-- Some bytes of the buffer have been delivered. -/
  consumed_le : r.consumed ≤ r.buffer.size
  begins : r.consumed ≤ place
  /-- The source is ahead by the others. -/
  ahead : r.source.position = place + (r.buffer.size - r.consumed)
  buffer : r.buffer.toList = (origin.bytes.toList.drop (place - r.consumed)).take r.buffer.size
  next : ∀ byte after, r.next = (.ok (some byte), after) → origin.bytes[place]? = some byte

/-- A reader that stands at an offset delivers the byte there. -/
theorem Reader.StandsAt.deliversAt (h : r.StandsAt origin offset) (hchunk : origin.chunk ≠ some 0) :
    r.DeliversAt origin (origin.position + offset) := by
  have hplace := h.place
  have hconsumed := h.consumed_le
  have hsize := h.size_le
  refine ⟨h.plan.bytes, hconsumed, by omega, by omega, ?_, ?_⟩
  · have start : origin.position + offset - r.consumed = r.source.position - r.buffer.size := by omega
    have full : ((origin.available.drop (r.source.position - r.buffer.size)).take r.buffer.size).length =
        r.buffer.size := by
      rw [← h.content, Array.length_toList]
    rw [start, origin.take_drop_bytes full]
    exact h.content
  · intro byte after delivered
    cases hbytes : origin.readable.drop offset with
    | nil =>
      rcases h.next_nil hbytes with ⟨fault, _, failed, -⟩ | ⟨_, nothing, -⟩
      · cases failed.symm.trans delivered
      · rw [nothing] at delivered
        cases hbehind : origin.behind <;> rw [hbehind] at delivered <;> cases delivered
    | cons first rest =>
      rcases h.next_cons hchunk hbytes with ⟨fault, _, failed, -⟩ | ⟨_, something, -⟩
      · cases failed.symm.trans delivered
      rw [something] at delivered
      cases delivered
      refine origin.getElem?_bytes ?_
      rw [← List.head?_drop, ← List.drop_drop]
      exact congrArg List.head? hbytes

end Bytes

namespace ByteCursor

variable {origin : Source} {chars : List Char} {c : ByteCursor}

/-- A reader that never delivers a byte has an empty buffer. -/
theorem Starved.deliversAt {offset : Nat} {r : Reader} (h : Starved origin offset r)
    (hchunk : origin.chunk = some 0) : r.DeliversAt origin (origin.position + offset) := by
  obtain ⟨rfl, plan, place, buffer, consumed⟩ := id h
  refine ⟨plan.bytes, ?_, ?_, ?_, ?_, ?_⟩
  · rw [consumed]
    exact Nat.zero_le _
  · rw [consumed]
    exact Nat.zero_le _
  · rw [place, buffer, consumed]
    rfl
  · rw [buffer]
    rfl
  · intro byte after delivered
    rcases h.next hchunk with ⟨fault, _, failed, -⟩ | ⟨_, nothing, -⟩
    · cases failed.symm.trans delivered
    · rw [nothing] at delivered
      cases hbehind : origin.delivering.behind <;> rw [hbehind] at delivered <;> cases delivered

/-! ## The invariant -/

/-- The cursor stands for a place in a document that is read from a source. -/
structure Represents (origin : Source) (chars : List Char) (c : ByteCursor) : Prop where
  /-- Nothing has been looked at behind a fault. -/
  forgets : c.failed = true → c.peeked = none
  /-- A fault is kept only if one was met. -/
  met : c.fault ≠ none → c.failed = true
  inside : c.position ≤ chars.length
  byteOffset : c.byteOffset = (Utf8.encode (chars.take c.position)).length
  /-- The next byte of the reader is the one at the offset up to which bytes have been decoded. -/
  reader : c.failed = false → c.reader.DeliversAt origin (origin.position + c.physical)
  /-- The reader is ahead by what has been looked at. -/
  physical : c.failed = false → c.physical = c.byteOffset + c.peeked.elim 0 Char.utf8Size
  peeked : c.failed = false → ∀ char, c.peeked = some char → chars[c.position]? = some char

/-- A coherent cursor stands for its place, if its reader delivers what it should. -/
theorem Coherent.represents {stands : Nat → Reader → Prop} (h : c.Coherent chars stands)
    (delivers : ∀ {offset r}, stands offset r → r.DeliversAt origin (origin.position + offset)) :
    c.Represents origin chars where
  forgets := h.broken
  met fault := by
    cases failed : c.failed with
    | true => rfl
    | false => exact absurd (h.fault failed) fault
  inside := h.inside
  byteOffset := h.byteOffset
  reader healthy := delivers (h.stands healthy)
  physical healthy := by
    rcases h.ahead healthy with ⟨none, physical⟩ | ⟨char, found, some, physical⟩
    · rw [none, h.byteOffset, physical]
      rfl
    · rw [some, h.byteOffset, physical, offsetOf_succ found]
      rfl
  peeked healthy char looked := by
    rcases h.ahead healthy with ⟨none, -⟩ | ⟨other, found, some, -⟩
    · cases none.symm.trans looked
    · rwa [← Option.some.inj (some.symm.trans looked)]

/-- At the start of any document a cursor stands that is at the start of the empty one. -/
theorem Represents.of_nil (h : c.Represents origin []) : c.Represents origin chars := by
  have start : c.position = 0 := Nat.le_zero.1 h.inside
  have byteOffset := h.byteOffset
  rw [List.take_nil, Utf8.encode_nil] at byteOffset
  refine ⟨h.forgets, h.met, ?_, ?_, h.reader, h.physical, fun healthy char looked => ?_⟩
  · rw [start]
    exact Nat.zero_le _
  · rw [start, List.take_zero, byteOffset, Utf8.encode_nil]
  · cases h.peeked healthy char looked

/-- What stands for its place does so whatever is done to it. -/
theorem exists_closed_represents (source : Source) : ∃ chars holds valid, Utf8.Longest chars source.readable ∧
    Cursor.Closed ByteCursor holds valid ∧ (∀ capacity, holds (ofSource source capacity)) ∧
    ∀ c, holds c → c.Represents source chars := by
  obtain ⟨chars, stop, hdoc⟩ := source.exists_decodes
  by_cases hchunk : source.chunk = some 0
  · have serves := Starved.servesMoved hchunk
    refine ⟨chars, _, _, hdoc.longest, Coherent.closed serves, coherent_ofSource ?_, fun c coherent => ?_⟩
    · exact fun _ => ⟨rfl, .refl _, rfl, rfl, rfl⟩
    · exact (coherent.represents fun starved => starved.deliversAt hchunk).of_nil
  · refine ⟨chars, _, _, hdoc.longest, Coherent.closed (servesMoved_standsAt hchunk hdoc),
      coherent_ofSource (Reader.standsAt_ofSource source), fun c coherent => ?_⟩
    exact coherent.represents fun standing => standing.deliversAt hchunk

end ByteCursor

variable {R : Type → Type} {α : Type}

/-- Every source has one document, and every cursor over its bytes that can be come by stands for a place in it,
whatever room the buffer has and whatever goes wrong. Behind a fault nothing has been looked at. Otherwise the
next byte of the reader is the one at the offset up to which bytes have been decoded, the buffer is the piece of
the source around it, and that offset is ahead of the cursor by the character that has been looked at, which is
the one at the position of the cursor in the document.

All handles of a session share one cursor, and so it is behind each command. -/
theorem representation_is_kept (source : Source) : ∃ chars, Utf8.Longest chars source.readable ∧
    (∀ capacity points c, Cursor.Reached (ByteCursor.ofSource source capacity) points c →
      c.Represents source chars) ∧
    ∀ capacity (grammar : Grammar R) budget (commands : List (Nat × Command R α)) exchanges,
      (Session.ofCursor (ByteCursor.ofSource source capacity)).transcript grammar budget commands = some exchanges →
      ∀ exchange ∈ exchanges, ∃ c, exchange.after.cursors = #[c] ∧ c.Represents source chars := by
  obtain ⟨chars, holds, valid, longest, closed, fresh, represents⟩ := ByteCursor.exists_closed_represents source
  refine ⟨chars, longest, fun capacity points c reached => ?_, fun capacity grammar budget commands exchanges ran => ?_⟩
  · exact represents c (closed.reached (fresh capacity) reached).1
  · intro exchange found
    obtain ⟨-, -, points, d, -, sole, -, -, held⟩ := Session.acts_of_transcript closed
      (Session.Sole.ofCursor _) (fresh capacity) (List.forall_mem_nil _) ran exchange found
    exact ⟨d, sole.cursors, represents d held⟩

/-- Two characters that come in pieces, where the second has been looked at, on a source that cannot be moved:
the reader is ahead by that character, until a return to the start fails. -/
theorem representation_is_kept_until_move :
    let source : Source := { Source.ofBytes #[0xc3, 0xa9, 0xe2, 0x82, 0xac] with
      chunk := some 2, moveFault := fun _ => some .seekBeforeStart }
    let start := ByteCursor.ofSource source 3
    let c := (Cursor.peek (Cursor.read start).2).2
    let d := Cursor.restore c start.mark
    (c.Represents source ['é', '€'] ∧ c.failed = false ∧ c.peeked = some '€' ∧ c.byteOffset = 2 ∧
      c.physical = 5) ∧
    d.Represents source ['é', '€'] ∧ d.failed = true ∧ d.peeked = none ∧ d.position = 0 := by
  intro source start c d
  obtain ⟨chars, longest, represents, -⟩ := representation_is_kept (R := NoRule) (α := Unit) source
  have document : source.Decodes ['é', '€'] none := ⟨[], by decide, rfl⟩
  obtain rfl := longest.unique document.longest
  have reached : Cursor.Reached start [start.mark] c := Cursor.Reached.start.mark.read.peek
  have failed : d.failed = true := by decide +kernel
  have broken := represents 3 _ d (reached.restore List.mem_cons_self)
  exact ⟨⟨represents 3 _ c reached, by decide +kernel, by decide +kernel, by decide +kernel, by decide +kernel⟩,
    broken, failed, broken.forgets failed, by decide +kernel⟩

end Parsing
