import Parsing.Cursor.Text
import Parsing.Proofs.Cursor.Faults
import Parsing.Proofs.Cursor.Serving
import Parsing.Proofs.Machine.Simulation

/-!
# A byte cursor answers like a text cursor

The invariant of a cursor over bytes that has met no fault ties its four places together: where the
reader stands, the offset and the position of the cursor, and the character that has been looked at.
It says that the cursor stands at a certain character of the document of its source. A text cursor at
that character gives the same answers, to parsers and to requests for the rest and for the newlines.

An operation may instead meet a fault, but only if there is one behind the document, or if the source is
not steady. Then the cursor is lost.
-/

namespace Parsing

open Bytes

/-- The cursor over a text that stands at a character of it. -/
def TextCursor.standing (chars : List Char) (index : Nat) : TextCursor :=
  ⟨String.ofList chars, chars.drop index, offsetOf chars index, index⟩

namespace TextCursor

variable {chars : List Char} {index : Nat}

/-- A new cursor stands at the first character. -/
theorem ofText_eq_standing (text : String) : ofText text = standing text.toList 0 := by
  simp [ofText, standing]

/-- The next character is the one at the index. -/
theorem peek_standing : (standing chars index).peek = chars[index]? := by
  simp [peek, standing]

/-- Reading a character leads to the next one. -/
theorem read_standing_char {char : Char} (h : chars[index]? = some char) :
    (standing chars index).read = (some char, standing chars (index + 1)) := by
  obtain ⟨hlt, hget⟩ := List.getElem?_eq_some_iff.1 h
  simp only [read, standing, List.drop_eq_getElem_cons hlt, hget, offsetOf_succ h]

/-- Reading at the end leads nowhere. -/
theorem read_standing_end (h : chars.length ≤ index) :
    (standing chars index).read = (none, standing chars index) := by
  simp only [read, standing, List.drop_eq_nil_of_le h]

end TextCursor

/-- There is a fault behind the document of a source, or its moves or any of its reads can fail. -/
def Bytes.Source.Faulty (origin : Source) (stop : Option Fault) : Prop := stop ≠ none ∨ ¬origin.Steady

namespace ByteCursor

/-- The cursor has met a fault, of which the source has some. -/
def Lost (origin : Source) (stop : Option Fault) (c : ByteCursor) : Prop :=
  c.failed = true ∧ origin.Faulty stop

/-- The cursor has met no fault, and the reader stands where the cursor believes it does. -/
structure Sound (origin : Source) (c : ByteCursor) : Prop where
  stands : c.reader.StandsAt origin c.physical
  healthy : c.failed = false
  fault : c.fault = none

/-- The cursor has met no fault and stands at a character of the document, which it may have looked
at; the reader is ahead by just that character. -/
structure Tracks (origin : Source) (chars : List Char) (index : Nat) (c : ByteCursor) : Prop
    extends c.Sound origin where
  inside : index ≤ chars.length
  position : c.position = index
  byteOffset : c.byteOffset = offsetOf chars index
  ahead : c.peeked = none ∧ c.physical = offsetOf chars index ∨
    ∃ char, chars[index]? = some char ∧ c.peeked = some char ∧ c.physical = offsetOf chars (index + 1)

/-- The mark of a character of the document. -/
def Point.of (chars : List Char) (index : Nat) : Point := ⟨offsetOf chars index, index⟩

variable {origin : Source} {chars : List Char} {stop : Option Fault} {index : Nat} {c : ByteCursor}

/-- A new cursor stands at the first character. -/
theorem tracks_ofSource (origin : Source) (capacity : Nat) (chars : List Char) :
    (ofSource origin capacity).Tracks origin chars 0 where
  stands := Reader.standsAt_ofSource origin capacity
  healthy := rfl
  fault := rfl
  inside := Nat.zero_le _
  position := rfl
  byteOffset := by simp [ofSource]
  ahead := .inl ⟨rfl, by simp [ofSource]⟩

/-- The mark of the cursor is that of its character. -/
theorem Tracks.mark_eq (h : c.Tracks origin chars index) : c.mark = Point.of chars index := by
  rw [mark, h.byteOffset, h.position, Point.of]

/-- Once a cursor is lost it stays lost. -/
theorem lost_keeps (origin : Source) (stop : Option Fault) :
    Cursor.Keeps ByteCursor (Lost origin stop) :=
  keeps_of_meets fun met h => ⟨met.failed_of_failed h.1, h.2⟩

/-- Meeting a fault behind the document loses the cursor. -/
theorem lost_of_stop {c : ByteCursor} {fault : Fault} (h : c.failed = true) :
    c.Lost origin (some fault) :=
  ⟨h, .inl (by simp)⟩

/-- Meeting a fault in the turn of a read loses the cursor. -/
theorem lost_of_failsReading {c : ByteCursor} (h : c.failed = true ∧ ∃ fault, origin.FailsReading fault) :
    c.Lost origin stop := by
  obtain ⟨failed, fault, failing⟩ := h
  exact ⟨failed, .inr fun steady => steady.not_failsReading fault failing⟩

/-- Decoding at a character of the document, or behind the last one. -/
theorem Sound.decode (hchunk : origin.chunk ≠ some 0) (hdoc : origin.Decodes chars stop)
    (h : c.Sound origin) (hindex : index ≤ chars.length) (hphysical : c.physical = offsetOf chars index) :
    Lost origin stop c.decode.2 ∨ ∃ reader,
      (∃ char, chars[index]? = some char ∧
        c.decode = (some char, { c with reader, physical := offsetOf chars (index + 1) }) ∧
        reader.StandsAt origin (offsetOf chars (index + 1))) ∨
      (chars[index]? = none ∧ c.decode = (none, { c with reader }) ∧
        reader.StandsAt origin c.physical) := by
  have serves := serves_standsAt hchunk hdoc
  cases hchar : chars[index]? with
  | some char =>
    rcases serves.decode_char h.healthy h.stands hphysical hchar with broken | ⟨reader, hdecode, after⟩
    · exact .inl (lost_of_failsReading broken.failed)
    · exact .inr ⟨reader, .inl ⟨char, rfl, hdecode, after⟩⟩
  | none =>
    obtain rfl : index = chars.length := Nat.le_antisymm hindex (List.getElem?_eq_none_iff.1 hchar)
    rcases serves.decode_end h.healthy h.stands hphysical with broken | ⟨reader, physical, hdecode, after⟩
    · exact .inl (lost_of_failsReading broken.failed)
    cases stop with
    | none =>
      obtain ⟨rfl, stands⟩ := after rfl
      exact .inr ⟨reader, .inr ⟨rfl, hdecode, stands⟩⟩
    | some fault =>
      rw [hdecode]
      exact .inl (lost_of_stop rfl)

/-- Going to a character of the document, which works unless the source fails to move. -/
theorem Sound.restore (h : c.Sound origin) (hdoc : origin.Decodes chars stop)
    (hindex : index ≤ chars.length) :
    Lost origin stop (c.restore (.of chars index)) ∨
      Tracks origin chars index (c.restore (.of chars index)) := by
  have tracks {reader : Reader} (stands : reader.StandsAt origin (offsetOf chars index)) :
      Tracks origin chars index { c with
        reader, physical := offsetOf chars index, byteOffset := offsetOf chars index
        position := index, peeked := none } :=
    ⟨⟨stands, h.healthy, h.fault⟩, hindex, rfl, rfl, .inl ⟨rfl, rfl⟩⟩
  unfold ByteCursor.restore seekTo Point.of
  split
  · next hsame =>
    refine .inr (tracks ?_)
    rw [show offsetOf chars index = c.physical from hsame]
    exact h.stands
  · rcases h.stands.moveBy (hdoc.offsetOf_le index) with ⟨after, hmove, stands⟩ | ⟨fault, after, count, hmove, hfault⟩
    · simp only [hmove]
      exact .inr (tracks stands)
    · simp only [hmove]
      exact .inl ⟨rfl, .inr fun steady => by cases (steady.moves count).symm.trans hfault⟩

/-- Scanning to the end from a character of the document, and going back to another. -/
theorem Sound.decodeAll_restore (hchunk : origin.chunk ≠ some 0) (hdoc : origin.Decodes chars stop)
    (h : c.Sound origin) (hindex : index ≤ chars.length) (hphysical : c.physical = offsetOf chars index)
    {target : Nat} (htarget : target ≤ chars.length) :
    Lost origin stop ((c.decodeAll []).2.restore (.of chars target)) ∨
      (stop = none ∧ (c.decodeAll []).1 = chars.drop index ∧
        Tracks origin chars target ((c.decodeAll []).2.restore (.of chars target))) := by
  have back {d : ByteCursor} (lost : Lost origin stop d) := (lost_keeps origin stop).restore d (.of chars target) lost
  rcases (serves_standsAt hchunk hdoc).decodeAll index c hindex [] h.healthy h.stands hphysical with
    broken | ⟨reader, physical, hall, after⟩
  · exact .inl (back (lost_of_failsReading broken))
  rw [hall]
  cases stop with
  | none =>
    have sound : Sound origin { c with reader, physical } := ⟨after rfl, h.healthy, h.fault⟩
    exact (sound.restore hdoc htarget).imp_right fun tracks => ⟨rfl, rfl, tracks⟩
  | some fault => exact .inl (back (lost_of_stop rfl))

/-- Looking at the character where the cursor stands. -/
theorem Tracks.peek (hchunk : origin.chunk ≠ some 0) (hdoc : origin.Decodes chars stop)
    (h : c.Tracks origin chars index) :
    Lost origin stop c.peek.2 ∨ (c.peek.1 = chars[index]? ∧ Tracks origin chars index c.peek.2) := by
  unfold ByteCursor.peek
  rcases h.ahead with ⟨hpeeked, hphysical⟩ | ⟨char, hchar, hpeeked, hphysical⟩
  · rw [hpeeked]
    rcases h.toSound.decode hchunk hdoc h.inside hphysical with
      lost | ⟨reader, ⟨char, hchar, hdecode, stands⟩ | ⟨hend, hdecode, stands⟩⟩
    · exact .inl lost
    · rw [hdecode]
      exact .inr ⟨hchar.symm, ⟨stands, h.healthy, h.fault⟩, h.inside, h.position, h.byteOffset,
        .inr ⟨char, hchar, rfl, rfl⟩⟩
    · rw [hdecode]
      exact .inr ⟨hend.symm, ⟨stands, h.healthy, h.fault⟩, h.inside, h.position, h.byteOffset,
        .inl ⟨rfl, hphysical⟩⟩
  · rw [hpeeked]
    exact .inr ⟨hchar.symm, h⟩

/-- Consuming the character where the cursor stands, if there is one. -/
theorem Tracks.read (hchunk : origin.chunk ≠ some 0) (hdoc : origin.Decodes chars stop)
    (h : c.Tracks origin chars index) :
    Lost origin stop c.read.2 ∨
      (∃ char, chars[index]? = some char ∧ c.read.1 = some char ∧ Tracks origin chars (index + 1) c.read.2) ∨
      (chars[index]? = none ∧ c.read.1 = none ∧ Tracks origin chars index c.read.2) := by
  have consumed {char : Char} (hchar : chars[index]? = some char) {reader : Reader}
      (stands : reader.StandsAt origin (offsetOf chars (index + 1))) :
      Tracks origin chars (index + 1) { c with
        reader, physical := offsetOf chars (index + 1), byteOffset := c.byteOffset + char.utf8Size
        position := c.position + 1, peeked := none } :=
    { stands := stands
      healthy := h.healthy
      fault := h.fault
      inside := (List.getElem?_eq_some_iff.1 hchar).1
      position := by simp only [h.position]
      byteOffset := by simp only [h.byteOffset, offsetOf_succ hchar]
      ahead := .inl ⟨rfl, rfl⟩ }
  unfold ByteCursor.read
  rcases h.ahead with ⟨hpeeked, hphysical⟩ | ⟨char, hchar, hpeeked, hphysical⟩
  · rcases h.toSound.decode hchunk hdoc h.inside hphysical with
      lost | ⟨reader, ⟨char, hchar, hdecode, stands⟩ | ⟨hend, hdecode, stands⟩⟩
    · simp only [hpeeked]
      refine .inl ?_
      split
      · exact lost
      · exact lost
    · simp only [hpeeked, hdecode]
      exact .inr (.inl ⟨char, hchar, rfl, hpeeked ▸ consumed hchar stands⟩)
    · simp only [hpeeked, hdecode]
      exact .inr (.inr ⟨hend, trivial, ⟨stands, h.healthy, h.fault⟩, h.inside, h.position,
        h.byteOffset, .inl ⟨rfl, hphysical⟩⟩)
  · simp only [hpeeked]
    have stands := h.stands
    rw [hphysical] at stands
    exact .inr (.inl ⟨char, hchar, rfl, hphysical ▸ consumed hchar stands⟩)

/-- Asking for the rest scans to the end and goes back. -/
theorem remaining_eq (c : ByteCursor) : c.remaining =
    (String.ofList (c.peeked.toList ++ (c.decodeAll []).1), (c.decodeAll []).2.restore c.mark) := rfl

/-- Asking for the newlines goes to the start, scans to the end and goes back. -/
theorem sourceMap_eq (c : ByteCursor) : c.sourceMap =
    (.ofChars ((c.restore ⟨0, 0⟩).decodeAll []).1,
      ((c.restore ⟨0, 0⟩).decodeAll []).2.restore c.mark) := rfl

/-- The rest of the document, if it ends without a fault. -/
theorem Tracks.remaining (hchunk : origin.chunk ≠ some 0) (hdoc : origin.Decodes chars stop)
    (h : c.Tracks origin chars index) :
    Lost origin stop c.remaining.2 ∨ (stop = none ∧
      c.remaining.1 = String.ofList (chars.drop index) ∧ Tracks origin chars index c.remaining.2) := by
  rw [remaining_eq, h.mark_eq]
  rcases h.ahead with ⟨hpeeked, hphysical⟩ | ⟨char, hchar, hpeeked, hphysical⟩
  · refine (h.toSound.decodeAll_restore hchunk hdoc h.inside hphysical h.inside).imp_right ?_
    rintro ⟨hstop, hchars, tracks⟩
    rw [hpeeked, hchars]
    exact ⟨hstop, rfl, tracks⟩
  · obtain ⟨hlt, hget⟩ := List.getElem?_eq_some_iff.1 hchar
    refine (h.toSound.decodeAll_restore hchunk hdoc hlt hphysical h.inside).imp_right ?_
    rintro ⟨hstop, hchars, tracks⟩
    rw [hpeeked, hchars, List.drop_eq_getElem_cons hlt, hget]
    exact ⟨hstop, rfl, tracks⟩

/-- The newlines of the whole document, if it ends without a fault. -/
theorem Tracks.sourceMap (hchunk : origin.chunk ≠ some 0) (hdoc : origin.Decodes chars stop)
    (h : c.Tracks origin chars index) :
    Lost origin stop c.sourceMap.2 ∨ (stop = none ∧
      c.sourceMap.1 = .ofChars chars ∧ Tracks origin chars index c.sourceMap.2) := by
  rw [sourceMap_eq, h.mark_eq, show (⟨0, 0⟩ : Point) = .of chars 0 by simp [Point.of]]
  rcases h.toSound.restore hdoc (Nat.zero_le _) with lost | start
  · obtain ⟨faults, scan⟩ := meets_decodeAll (c.restore (.of chars 0)) []
    obtain ⟨more, back⟩ := meets_restore ((c.restore (.of chars 0)).decodeAll []).2 (.of chars index)
    exact .inl ⟨(scan.trans back).failed_of_failed lost.1, lost.2⟩
  · have hphysical : (c.restore (.of chars 0)).physical = offsetOf chars 0 := by
      rcases start.ahead with ⟨-, hphysical⟩ | ⟨char, -, hpeeked, -⟩
      · exact hphysical
      · cases hpeeked
    refine (start.toSound.decodeAll_restore hchunk hdoc (Nat.zero_le _) hphysical h.inside).imp_right ?_
    rintro ⟨hstop, hchars, tracks⟩
    rw [hchars]
    exact ⟨hstop, rfl, tracks⟩

/-- A byte cursor and the text cursor at the same character answer alike until a fault is met. -/
def agreement (origin : Source) (chars : List Char) (stop : Option Fault)
    (hchunk : origin.chunk ≠ some 0) (hdoc : origin.Decodes chars stop) :
    Cursor.Simulation ByteCursor TextCursor where
  alike c d := ∃ index, c.Tracks origin chars index ∧ d = .standing chars index
  points p q := ∃ index, index ≤ chars.length ∧ p = .of chars index ∧
    q = (TextCursor.standing chars index).mark
  lost := Lost origin stop
  lost_keeps := lost_keeps origin stop
  position_eq := by
    rintro c d ⟨index, tracks, rfl⟩
    exact tracks.position
  peek_alike := by
    rintro c d ⟨index, tracks, rfl⟩
    rcases tracks.peek hchunk hdoc with lost | ⟨same, after⟩
    · exact .inl lost
    · exact .inr ⟨same.trans TextCursor.peek_standing.symm, index, after, rfl⟩
  read_alike := by
    rintro c d ⟨index, tracks, rfl⟩
    rcases tracks.read hchunk hdoc with lost | ⟨char, hchar, hread, after⟩ | ⟨hend, hread, after⟩
    · exact .inl lost
    · have other := TextCursor.read_standing_char hchar
      exact .inr ⟨hread.trans (congrArg Prod.fst other).symm, index + 1, after, congrArg Prod.snd other⟩
    · have other := TextCursor.read_standing_end (List.getElem?_eq_none_iff.1 hend)
      exact .inr ⟨hread.trans (congrArg Prod.fst other).symm, index, after, congrArg Prod.snd other⟩
  mark_alike := by
    rintro c d ⟨index, tracks, rfl⟩
    exact ⟨⟨index, tracks.inside, tracks.mark_eq, rfl⟩, index, tracks, rfl⟩
  restore_alike := by
    rintro c d p q ⟨index, tracks, rfl⟩ ⟨target, inside, rfl, rfl⟩
    exact (tracks.toSound.restore hdoc inside).imp_right fun after => ⟨target, after, rfl⟩
  release_alike := fun alike _ => alike

end ByteCursor

end Parsing
