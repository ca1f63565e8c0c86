import Parsing.Proofs.Cursor.Agreement
import Parsing.Proofs.Cursor.Reached

/-!
# Where cursors stand

A cursor over a text always stands at a character of the document, or at its end. Over bytes much more can
happen: reads can fail, the encoding can be malformed, and moves can fail, also a move back to a mark. Yet
whatever happens, the cursor stands at a character of the document, or at its end, and knows the offset of that
character. As long as it has met no fault its reader is where it should be: ahead of the cursor by just the
character that has been looked at. From a fault on the reader may be anywhere, but it is not asked any more.

This holds of every cursor that can be come by. So no cursor ever stands behind the end of the document.
-/

namespace Parsing

open Bytes

/-- Every text cursor that can be come by stands at a character of the document, or at its end. -/
theorem TextCursor.closed_standing (chars : List Char) :
    Cursor.Closed TextCursor (fun c => ∃ index ≤ chars.length, c = .standing chars index)
      fun point => ∃ index ≤ chars.length, point = (TextCursor.standing chars index).mark where
  peek held := held
  read := by
    rintro c ⟨index, inside, rfl⟩
    change ∃ other ≤ chars.length, (standing chars index).read.2 = standing chars other
    cases found : chars[index]? with
    | none =>
      rw [read_standing_end (List.getElem?_eq_none_iff.1 found)]
      exact ⟨index, inside, rfl⟩
    | some char =>
      rw [read_standing_char found]
      exact ⟨index + 1, (List.getElem?_eq_some_iff.1 found).1, rfl⟩
  remaining held := held
  sourceMap held := held
  takeFault held := held
  mark := fun ⟨index, inside, standing⟩ =>
    ⟨⟨index, inside, congrArg TextCursor.mark standing⟩, index, inside, standing⟩
  restore := by
    rintro c point ⟨index, -, rfl⟩ ⟨target, inside, rfl⟩
    exact ⟨target, inside, rfl⟩
  release held _ := held

namespace ByteCursor

/-- A reader that serves a document, and that is where it should be after each move to a character of it
that does not fail. -/
structure ServesMoved (origin : Source) (chars : List Char) (stop : Option Fault)
    (stands : Nat → Reader → Prop) : Prop extends Serves origin chars stop stands where
  moved : ∀ {offset r after} {target : Nat}, stands offset r → target ≤ chars.length →
    r.moveBy ((offsetOf chars target : Int) - offset) = (.ok (), after) → stands (offsetOf chars target) after

variable {origin : Source} {chars : List Char} {stop : Option Fault} {stands : Nat → Reader → Prop}

/-- The moves of a source that delivers bytes either fail or lead to the offset. -/
theorem servesMoved_standsAt (hchunk : origin.chunk ≠ some 0) (hdoc : origin.Decodes chars stop) :
    ServesMoved origin chars stop fun offset r => r.StandsAt origin offset where
  toServes := serves_standsAt hchunk hdoc
  moved {offset r after target} stands _ ran := by
    rcases stands.moveBy (hdoc.offsetOf_le target) with ⟨there, moved, standing⟩ | ⟨fault, other, _, failed, _⟩
    · obtain ⟨-, rfl⟩ := Prod.mk.inj (ran.symm.trans moved)
      exact standing
    · cases ran.symm.trans failed

/-- A reader that never delivers a byte is only ever moved to the start. -/
theorem Starved.servesMoved (hchunk : origin.chunk = some 0) :
    ServesMoved origin [] origin.delivering.behind (Starved origin) where
  toServes := Starved.serves hchunk
  moved starved inside ran := by
    obtain ⟨there, moved, standing⟩ := starved.moveBy inside
    obtain ⟨-, rfl⟩ := Prod.mk.inj (ran.symm.trans moved)
    exact standing

/-- Every source serves its document, whatever its reads and moves do. -/
theorem exists_servesMoved (hdoc : origin.delivering.Decodes chars stop) :
    ∃ stands, ServesMoved origin chars stop stands ∧ ∀ capacity, stands 0 (.ofSource origin capacity) := by
  by_cases hchunk : origin.chunk = some 0
  · obtain ⟨rfl, rfl⟩ := decodes_delivering_of_chunk_zero hchunk hdoc
    exact ⟨_, Starved.servesMoved hchunk, fun _ => ⟨rfl, .refl _, rfl, rfl, rfl⟩⟩
  · rw [Source.delivering, if_neg hchunk] at hdoc
    exact ⟨_, servesMoved_standsAt hchunk hdoc, Reader.standsAt_ofSource origin⟩

/-- Unless the cursor has met a fault its reader stands where the cursor believes it does. -/
structure Reliable (stands : Nat → Reader → Prop) (c : ByteCursor) : Prop where
  fault : c.failed = false → c.fault = none
  stands : c.failed = false → stands c.physical c.reader

/-- The cursor stands at a character of the document, or at its end, and knows its offset. Unless it has met a
fault, the reader is ahead by just the character that has been looked at. -/
structure Coherent (chars : List Char) (stands : Nat → Reader → Prop) (c : ByteCursor) : Prop
    extends c.Reliable stands where
  inside : c.position ≤ chars.length
  byteOffset : c.byteOffset = offsetOf chars c.position
  broken : c.failed = true → c.peeked = none
  ahead : c.failed = false → c.peeked = none ∧ c.physical = offsetOf chars c.position ∨
    ∃ char, chars[c.position]? = some char ∧ c.peeked = some char ∧
      c.physical = offsetOf chars (c.position + 1)

variable {c : ByteCursor} {index target : Nat}

/-- Nothing is said about a cursor that has met a fault. -/
theorem Reliable.of_failed (h : c.failed = true) : c.Reliable stands :=
  ⟨fun healthy => (nomatch h.symm.trans healthy), fun healthy => (nomatch h.symm.trans healthy)⟩

/-- A new cursor is at the start of the document. -/
theorem coherent_ofSource (fresh : ∀ capacity, stands 0 (.ofSource origin capacity)) (capacity : Nat) :
    (ofSource origin capacity).Coherent chars stands where
  fault _ := rfl
  stands _ := fresh capacity
  inside := Nat.zero_le _
  byteOffset := (offsetOf_zero chars).symm
  broken _ := rfl
  ahead _ := .inl ⟨rfl, (offsetOf_zero chars).symm⟩

/-- The mark of the cursor is that of a character of the document, or of its end. -/
theorem Coherent.mark_eq (h : c.Coherent chars stands) : c.mark = .of chars c.position := by
  rw [mark, h.byteOffset, Point.of]

/-- Going to a character of the document leads there, and if that fails the cursor has met a fault. -/
theorem Reliable.restore (h : c.Reliable stands) (serves : ServesMoved origin chars stop stands)
    (inside : target ≤ chars.length) : (c.restore (.of chars target)).Coherent chars stands := by
  have arrives {d : ByteCursor} (reliable : d.Reliable stands)
      (hphysical : d.failed = false → d.physical = offsetOf chars target) :
      Coherent chars stands
        { d with byteOffset := offsetOf chars target, position := target, peeked := none } :=
    ⟨⟨reliable.fault, reliable.stands⟩, inside, rfl, fun _ => rfl, fun healthy => .inl ⟨rfl, hphysical healthy⟩⟩
  unfold ByteCursor.restore seekTo
  split
  · next same => exact arrives ⟨h.fault, fun healthy => same ▸ h.stands healthy⟩ fun _ => rfl
  · split
    · next reader moved =>
      exact arrives ⟨h.fault, fun healthy => serves.moved (h.stands healthy) inside moved⟩ fun _ => rfl
    · exact arrives (.of_failed rfl) fun _ => rfl

/-- Scanning to the end leaves the reader where the cursor believes it is, if no fault is met there. -/
theorem Reliable.decodeAll (h : c.Reliable stands) (serves : Serves origin chars stop stands)
    (inside : index ≤ chars.length) (hphysical : c.failed = false → c.physical = offsetOf chars index) :
    (c.decodeAll []).2.Reliable stands := by
  cases healthy : c.failed with
  | true =>
    rw [decodeAll_of_failed healthy]
    exact .of_failed healthy
  | false =>
    rcases serves.decodeAll index c inside [] healthy (h.stands healthy) (hphysical healthy) with
      broken | ⟨reader, physical, hall, after⟩
    · exact .of_failed broken.1
    rw [hall]
    cases stop with
    | none => exact ⟨h.fault, fun _ => after rfl⟩
    | some fault => exact .of_failed rfl

namespace Coherent

/-- Unless a fault has been met there is a place up to which the reader has come. -/
theorem exists_physical (h : c.Coherent chars stands) :
    ∃ index ≤ chars.length, c.failed = false → c.physical = offsetOf chars index := by
  cases healthy : c.failed with
  | true => exact ⟨0, Nat.zero_le _, fun other => by cases other⟩
  | false =>
    rcases h.ahead healthy with ⟨-, hphysical⟩ | ⟨char, hchar, -, hphysical⟩
    · exact ⟨c.position, h.inside, fun _ => hphysical⟩
    · exact ⟨c.position + 1, (List.getElem?_eq_some_iff.1 hchar).1, fun _ => hphysical⟩

/-- Decoding finds the character at the cursor, or nothing at the end and after a fault. -/
theorem decode (h : c.Coherent chars stands) (serves : Serves origin chars stop stands)
    (hpeeked : c.peeked = none) :
    (c.decode.1 = none ∧ c.decode.2.Coherent chars stands) ∨
      ∃ char reader, chars[c.position]? = some char ∧ c.failed = false ∧
        c.decode = (some char, { c with reader, physical := offsetOf chars (c.position + 1) }) ∧
        stands (offsetOf chars (c.position + 1)) reader := by
  by_cases failed : c.failed = true
  · rw [decode_of_failed failed]
    exact .inl ⟨rfl, h⟩
  · have healthy : c.failed = false := Bool.eq_false_iff.2 failed
    have hphysical : c.physical = offsetOf chars c.position := by
      rcases h.ahead healthy with ⟨-, hphysical⟩ | ⟨char, -, other, -⟩
      · exact hphysical
      · cases hpeeked.symm.trans other
    have fails (reader : Reader) (physical : Nat) (fault : Fault) :
        (fail { c with reader, physical } fault).Coherent chars stands :=
      ⟨.of_failed rfl, h.inside, h.byteOffset, fun _ => hpeeked, fun other => by cases other⟩
    cases hchar : chars[c.position]? with
    | some char =>
      rcases serves.decode_char healthy (h.stands healthy) hphysical hchar with
        ⟨reader, physical, fault, hdecode, -⟩ | ⟨reader, hdecode, after⟩
      · rw [hdecode]
        exact .inl ⟨rfl, fails reader physical fault⟩
      · exact .inr ⟨char, reader, rfl, healthy, hdecode, after⟩
    | none =>
      have hend : c.position = chars.length := Nat.le_antisymm h.inside (List.getElem?_eq_none_iff.1 hchar)
      rcases serves.decode_end healthy (h.stands healthy) (hend ▸ hphysical) with
        ⟨reader, physical, fault, hdecode, -⟩ | ⟨reader, physical, hdecode, after⟩ <;> rw [hdecode]
      · exact .inl ⟨rfl, fails reader physical fault⟩
      refine .inl ⟨rfl, ?_⟩
      cases stop with
      | none =>
        obtain ⟨rfl, standing⟩ := after rfl
        exact ⟨⟨h.fault, fun _ => standing⟩, h.inside, h.byteOffset, h.broken,
          fun _ => .inl ⟨hpeeked, hphysical⟩⟩
      | some fault => exact fails reader physical fault

/-- Looking at the character at the cursor. -/
theorem peek (h : c.Coherent chars stands) (serves : Serves origin chars stop stands) :
    c.peek.2.Coherent chars stands := by
  unfold ByteCursor.peek
  cases hpeeked : c.peeked with
  | some char => exact h
  | none =>
    rcases h.decode serves hpeeked with ⟨hnone, after⟩ | ⟨char, reader, hchar, healthy, hdecode, standing⟩
    · have hpeeked' : c.decode.2.peeked = none := (stays_decode c).peeked.trans hpeeked
      simp only [hnone]
      rwa [show { c.decode.2 with peeked := none } = c.decode.2 by rw [← hpeeked']]
    · rw [hdecode]
      exact ⟨⟨h.fault, fun _ => standing⟩, h.inside, h.byteOffset,
        fun failed => (by cases failed.symm.trans healthy), fun _ => .inr ⟨char, hchar, rfl, rfl⟩⟩

/-- Consuming the character at the cursor. -/
theorem read (h : c.Coherent chars stands) (serves : Serves origin chars stop stands) :
    c.read.2.Coherent chars stands := by
  have consumed {char : Char} (hchar : chars[c.position]? = some char) {reader : Reader}
      (healthy : c.failed = false) (standing : stands (offsetOf chars (c.position + 1)) reader) :
      Coherent chars stands { c with
        reader, physical := offsetOf chars (c.position + 1), peeked := none
        byteOffset := c.byteOffset + char.utf8Size, position := c.position + 1 } :=
    { fault := h.fault
      stands := fun _ => standing
      inside := (List.getElem?_eq_some_iff.1 hchar).1
      byteOffset := by simp only [h.byteOffset, offsetOf_succ hchar]
      broken := fun _ => rfl
      ahead := fun _ => .inl ⟨rfl, rfl⟩ }
  unfold ByteCursor.read
  cases hpeeked : c.peeked with
  | some char =>
    have healthy : c.failed = false := by
      cases failed : c.failed with
      | true => cases hpeeked.symm.trans (h.broken failed)
      | false => rfl
    rcases h.ahead healthy with ⟨other, -⟩ | ⟨known, hchar, other, hphysical⟩
    · cases hpeeked.symm.trans other
    · obtain rfl := Option.some.inj (hpeeked.symm.trans other)
      exact hphysical ▸ consumed hchar healthy (hphysical ▸ h.stands healthy)
  | none =>
    rcases h.decode serves hpeeked with ⟨hnone, after⟩ | ⟨char, reader, hchar, healthy, hdecode, standing⟩
    · rcases hdecode : c.decode with ⟨_ | char, d⟩ <;> rw [hdecode] at hnone after
      · exact after
      · cases hnone
    · simp only [hdecode]
      exact hpeeked ▸ consumed hchar healthy standing

/-- Asking for the rest goes back to where the cursor was. -/
theorem remaining (h : c.Coherent chars stands) (serves : ServesMoved origin chars stop stands) :
    c.remaining.2.Coherent chars stands := by
  obtain ⟨index, inside, hphysical⟩ := h.exists_physical
  rw [remaining_eq, h.mark_eq]
  exact (h.toReliable.decodeAll serves.toServes inside hphysical).restore serves h.inside

/-- Asking for the newlines goes back to where the cursor was. -/
theorem sourceMap (h : c.Coherent chars stands) (serves : ServesMoved origin chars stop stands) :
    c.sourceMap.2.Coherent chars stands := by
  have start : (c.restore (.of chars 0)).Coherent chars stands := h.toReliable.restore serves (Nat.zero_le _)
  obtain ⟨index, inside, hphysical⟩ := start.exists_physical
  rw [sourceMap_eq, h.mark_eq, show (⟨0, 0⟩ : Point) = .of chars 0 by simp [Point.of]]
  exact (start.toReliable.decodeAll serves.toServes inside hphysical).restore serves h.inside

/-- A cursor knows where it is whatever is done to it, as long as only its own marks are used. -/
theorem closed (serves : ServesMoved origin chars stop stands) :
    Cursor.Closed ByteCursor (Coherent chars stands) fun point =>
      ∃ target ≤ chars.length, point = Point.of chars target where
  peek h := h.peek serves.toServes
  read h := h.read serves.toServes
  remaining h := h.remaining serves
  sourceMap h := h.sourceMap serves
  takeFault h := ⟨⟨fun _ => rfl, h.stands⟩, h.inside, h.byteOffset, h.broken, h.ahead⟩
  mark h := ⟨⟨_, h.inside, h.mark_eq⟩, h⟩
  restore := by
    rintro c point h ⟨target, inside, rfl⟩
    exact h.toReliable.restore serves inside
  release h _ := h

end Coherent

end ByteCursor

end Parsing
