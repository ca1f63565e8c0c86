import Parsing.Proofs.Cursor.Agreement
import Parsing.Proofs.Cursor.Serving
import Parsing.Proofs.Run.Sessions

/-!
# A byte cursor is an index into a document

A cursor over the bytes of a source can be forgotten about. Whatever happens in a session with such a
cursor, all answers are those of a mere index into the document of the source, shared by all handles. There
is no buffer, nothing is read ahead and nothing is moved. If a fault stands behind the document, then what
needs the character there still answers as if the document ended, and from then on nothing is found any
more.

The source must be steady, since an index can always be moved, and meets no fault before the end of the
document.
-/

namespace Parsing

open Bytes

/-- A cursor that is an index into a document, behind which a fault may stand. -/
structure IndexCursor (chars : List Char) (stop : Option Fault) where
  index : Nat
  inside : index ≤ chars.length
  failed : Bool
  /-- The fault that was met, while it has not been taken. -/
  fault : Option Fault

namespace IndexCursor

variable {chars : List Char} {stop : Option Fault}

/-- An index of the document, as a mark keeps it. -/
structure Point (chars : List Char) where
  index : Nat
  inside : index ≤ chars.length

/-- A cursor at the first character. -/
def start (chars : List Char) (stop : Option Fault) : IndexCursor chars stop :=
  ⟨0, Nat.zero_le _, false, none⟩

/-- Ask for the character behind the document. There is none, but there may be a fault. -/
def pastEnd (c : IndexCursor chars stop) : IndexCursor chars stop :=
  match stop with
  | none => c
  | some fault => { c with failed := true, fault := c.fault.or (some fault) }

/-- To ask behind the end does not move the index. -/
@[simp] theorem index_pastEnd (c : IndexCursor chars stop) : c.pastEnd.index = c.index := by
  cases stop <;> rfl

/-- The character at the index. -/
def peek (c : IndexCursor chars stop) : Option Char × IndexCursor chars stop :=
  if c.failed then (none, c)
  else if h : c.index < chars.length then (some chars[c.index], c)
  else (none, c.pastEnd)

/-- The character at the index, which is consumed. -/
def read (c : IndexCursor chars stop) : Option Char × IndexCursor chars stop :=
  if c.failed then (none, c)
  else if h : c.index < chars.length then
    (some chars[c.index], { c with index := c.index + 1, inside := h })
  else (none, c.pastEnd)

/-- Characters of the document, all of which are looked at up to the end. -/
def scan (c : IndexCursor chars stop) (found : List Char) : List Char × IndexCursor chars stop :=
  if c.failed then ([], c) else (found, c.pastEnd)

/-- What is found by a scan does not matter to what it leaves. -/
theorem scan_snd_eq (c : IndexCursor chars stop) (found other : List Char) :
    (c.scan found).2 = (c.scan other).2 := by
  unfold scan
  split <;> rfl

/-- Go to an index. -/
def goTo (c : IndexCursor chars stop) (point : Point chars) : IndexCursor chars stop :=
  { c with index := point.index, inside := point.inside }

/-- It does not matter where a scan begins. -/
theorem scan_goTo_fst (c : IndexCursor chars stop) (point : Point chars) (found : List Char) :
    ((c.goTo point).scan found).1 = (c.scan found).1 := by
  unfold scan goTo
  split <;> rfl

/-- Going back after a scan, wherever it began. -/
theorem goTo_scan_goTo (c : IndexCursor chars stop) (point : Point chars) (found : List Char) :
    ((c.goTo point).scan found).2.goTo ⟨c.index, c.inside⟩ = (c.scan found).2 := by
  unfold scan goTo
  split
  · rfl
  · cases stop <;> rfl

instance : Cursor (IndexCursor chars stop) where
  Point := Point chars
  peek := peek
  read := read
  position := index
  remaining c := (String.ofList (c.scan (chars.drop c.index)).1, (c.scan (chars.drop c.index)).2)
  mark c := (⟨c.index, c.inside⟩, c)
  restore := goTo
  release c _ := c
  sourceMap c := (.ofChars (c.scan chars).1, (c.scan chars).2)
  takeFault c := (c.fault, { c with fault := none })

/-- An index is shown as a cursor over bytes is, with the offset of its character. -/
def describe (c : IndexCursor chars stop) : String :=
  s!"IoStream \x7b position: {c.index}, byte_offset: {offsetOf chars c.index}, " ++
    s!"failed: {c.failed}, .. \x7d"

instance : Inspectable (IndexCursor chars stop) where
  sharing := .shared
  describe := describe
  describePoint point := ByteCursor.Point.describe (.of chars point.index)
  suffix? _ := none
  takeEvents c := ([], c)

end IndexCursor

namespace ByteCursor

variable {origin : Source} {chars : List Char} {stop : Option Fault} {stands : Nat → Reader → Prop}

/-- The cursor can be taken to the place where the index is: it has met the same fault, its reader knows
where it stands, and it serves the document unless a fault was met. -/
structure Ready (origin : Source) (stands : Nat → Reader → Prop) (c : ByteCursor)
    (d : IndexCursor chars stop) : Prop where
  failed : c.failed = d.failed
  fault : c.fault = d.fault
  placed : c.Placed origin
  serves : d.failed = false → stands c.physical c.reader

/-- The cursor is where the index is. It may have looked at the character there, and the reader is then ahead
by just that character. When a fault has been met no character has been looked at. -/
structure Follows (origin : Source) (stands : Nat → Reader → Prop) (c : ByteCursor)
    (d : IndexCursor chars stop) : Prop extends Ready origin stands c d where
  position : c.position = d.index
  byteOffset : c.byteOffset = offsetOf chars d.index
  broken : d.failed = true → c.peeked = none
  ahead : d.failed = false → c.peeked = none ∧ c.physical = offsetOf chars d.index ∨
    ∃ h : d.index < chars.length, c.peeked = some chars[d.index] ∧ c.physical = offsetOf chars (d.index + 1)

variable {c : ByteCursor} {d : IndexCursor chars stop}

/-- A new cursor is at the start. -/
theorem follows_start (h : ∀ capacity, stands 0 (.ofSource origin capacity)) (capacity : Nat) :
    (ofSource origin capacity).Follows origin stands (.start chars stop) where
  failed := rfl
  fault := rfl
  placed := placed_ofSource origin capacity
  serves _ := h capacity
  position := rfl
  byteOffset := (offsetOf_zero chars).symm
  broken _ := rfl
  ahead _ := .inl ⟨rfl, (offsetOf_zero chars).symm⟩

/-- At the end of the document both meet the fault that stands there, if there is one. -/
theorem Ready.pastEnd (h : c.Ready origin stands d) {reader : Reader} {physical : Nat}
    (placed : reader.PlacedAt origin physical) (serves : stop = none → stands physical reader) :
    Ready origin stands (stop.elim { c with reader, physical } (fail { c with reader, physical }))
      d.pastEnd := by
  cases stop with
  | none => exact ⟨h.failed, h.fault, placed, fun _ => serves rfl⟩
  | some fault =>
    refine ⟨rfl, ?_, placed, fun failed => by cases failed⟩
    change c.fault.or (some fault) = d.fault.or (some fault)
    rw [h.fault]

/-- A cursor that stays where it is over bytes is still where the index is. -/
theorem Ready.follows {after : ByteCursor} {e : IndexCursor chars stop} (h : after.Ready origin stands e)
    (followed : c.Follows origin stands d) (stays : c.Stays after) (index : e.index = d.index)
    (hpeeked : c.peeked = none)
    (hphysical : e.failed = false → after.physical = offsetOf chars d.index) :
    after.Follows origin stands e where
  toReady := h
  position := by rw [stays.position, followed.position, index]
  byteOffset := by rw [stays.byteOffset, followed.byteOffset, index]
  broken _ := stays.peeked.trans hpeeked
  ahead healthy := .inl ⟨stays.peeked.trans hpeeked, index ▸ hphysical healthy⟩

/-- Nothing more is decoded at the end of the document. -/
theorem Follows.decode_end (h : c.Follows origin stands d) (serves : ServesAnywhere origin chars stop stands)
    (healthy : d.failed = false) (hpeeked : c.peeked = none) (hphysical : c.physical = offsetOf chars d.index)
    (hend : ¬d.index < chars.length) :
    c.decode.1 = none ∧ c.decode.2.Follows origin stands d.pastEnd := by
  have hindex : d.index = chars.length := Nat.le_antisymm d.inside (Nat.not_lt.1 hend)
  obtain ⟨reader, physical, hdecode, after⟩ :=
    serves.decode_end_eq (h.failed.trans healthy) (h.serves healthy) (hindex ▸ hphysical)
  have stays := stays_decode c
  have placed : reader.PlacedAt origin physical := by
    have placed := stays.placed origin h.placed
    rw [hdecode] at placed
    cases stop <;> exact placed
  have ready := h.toReady.pastEnd placed fun hstop => (after hstop).2
  rw [hdecode] at stays ⊢
  refine ⟨rfl, ready.follows h stays (IndexCursor.index_pastEnd d) hpeeked fun healthy => ?_⟩
  cases stop with
  | none => exact (after rfl).1.trans hphysical
  | some fault => cases healthy

/-- Both look at the same character. -/
theorem Follows.peek (h : c.Follows origin stands d) (serves : ServesAnywhere origin chars stop stands) :
    c.peek.1 = d.peek.1 ∧ c.peek.2.Follows origin stands d.peek.2 := by
  unfold ByteCursor.peek IndexCursor.peek
  cases healthy : d.failed with
  | true =>
    have hpeeked := h.broken healthy
    simp only [hpeeked, decode_of_failed (h.failed.trans healthy), if_true, true_and]
    exact ⟨⟨h.failed, h.fault, h.placed, h.serves⟩, h.position, h.byteOffset, fun _ => rfl,
      fun other => by cases healthy.symm.trans other⟩
  | false =>
    simp only [Bool.false_eq_true, if_false]
    rcases h.ahead healthy with ⟨hpeeked, hphysical⟩ | ⟨hlt, hpeeked, hphysical⟩
    · rw [hpeeked]
      by_cases hlt : d.index < chars.length
      · obtain ⟨reader, hdecode, after⟩ := serves.decode_char_eq (h.failed.trans healthy) (h.serves healthy)
          hphysical (List.getElem?_eq_getElem hlt)
        simp only [hdecode, dif_pos hlt, true_and]
        exact ⟨⟨h.failed, h.fault, serves.placed after, fun _ => after⟩, h.position, h.byteOffset,
          fun other => by (cases healthy.symm.trans other), fun _ => .inr ⟨hlt, rfl, rfl⟩⟩
      · obtain ⟨hnone, follows⟩ := h.decode_end serves healthy hpeeked hphysical hlt
        have hpeeked' : c.decode.2.peeked = none := (stays_decode c).peeked.trans hpeeked
        simp only [dif_neg hlt, hnone, true_and]
        rwa [show { c.decode.2 with peeked := none } = c.decode.2 by rw [← hpeeked']]
    · rw [hpeeked, dif_pos hlt]
      exact ⟨rfl, h⟩

/-- Both consume the same character. -/
theorem Follows.read (h : c.Follows origin stands d) (serves : ServesAnywhere origin chars stop stands) :
    c.read.1 = d.read.1 ∧ c.read.2.Follows origin stands d.read.2 := by
  have consumed {hlt : d.index < chars.length} {reader : Reader} (healthy : d.failed = false)
      (after : stands (offsetOf chars (d.index + 1)) reader) :
      Follows origin stands { c with
          reader, physical := offsetOf chars (d.index + 1), peeked := none
          byteOffset := c.byteOffset + chars[d.index].utf8Size, position := c.position + 1 }
        ({ d with index := d.index + 1, inside := hlt } : IndexCursor chars stop) :=
    { failed := h.failed
      fault := h.fault
      placed := serves.placed after
      serves := fun _ => after
      position := congrArg (· + 1) h.position
      byteOffset := by
        simp only [h.byteOffset, offsetOf_succ (List.getElem?_eq_getElem hlt)]
      broken := fun other => by cases healthy.symm.trans other
      ahead := fun _ => .inl ⟨rfl, rfl⟩ }
  unfold ByteCursor.read IndexCursor.read
  by_cases failed : d.failed = true
  · simp only [h.broken failed, decode_of_failed (h.failed.trans failed), if_pos failed, true_and]
    exact h
  · have healthy : d.failed = false := Bool.eq_false_iff.2 failed
    rw [if_neg failed]
    rcases h.ahead healthy with ⟨hpeeked, hphysical⟩ | ⟨hlt, hpeeked, hphysical⟩
    · by_cases hlt : d.index < chars.length
      · obtain ⟨reader, hdecode, after⟩ := serves.decode_char_eq (h.failed.trans healthy) (h.serves healthy)
          hphysical (List.getElem?_eq_getElem hlt)
        simp only [hpeeked, hdecode, dif_pos hlt, true_and]
        exact hpeeked ▸ consumed healthy after
      · obtain ⟨hnone, follows⟩ := h.decode_end serves healthy hpeeked hphysical hlt
        rcases hdecode : c.decode with ⟨_ | char, after⟩ <;> rw [hdecode] at hnone follows
        · simp only [hpeeked, dif_neg hlt, true_and]
          exact follows
        · cases hnone
    · have after := h.serves healthy
      rw [hphysical] at after
      simp only [hpeeked, dif_pos hlt, true_and]
      exact hphysical ▸ consumed healthy after

/-- Both find the same characters up to the end. -/
theorem Ready.decodeAll (h : c.Ready origin stands d) (serves : ServesAnywhere origin chars stop stands)
    {index : Nat} (inside : index ≤ chars.length)
    (hphysical : d.failed = false → c.physical = offsetOf chars index) :
    (c.decodeAll []).1 = (d.scan (chars.drop index)).1 ∧
      (c.decodeAll []).2.Ready origin stands (d.scan (chars.drop index)).2 := by
  cases healthy : d.failed with
  | true =>
    rw [decodeAll_of_failed (h.failed.trans healthy), IndexCursor.scan, if_pos healthy]
    exact ⟨rfl, h⟩
  | false =>
    obtain ⟨reader, physical, hall, after⟩ := serves.decodeAll_eq inside []
      (h.failed.trans healthy) (h.serves healthy) (hphysical healthy)
    have placed : reader.PlacedAt origin physical := by
      have placed := (stays_decodeAll c []).placed origin h.placed
      rw [hall] at placed
      cases stop <;> exact placed
    rw [hall, IndexCursor.scan, if_neg (by simp [healthy])]
    exact ⟨rfl, h.pastEnd placed after⟩

/-- Both go to the same place. -/
theorem Ready.restore (h : c.Ready origin stands d) (serves : ServesAnywhere origin chars stop stands)
    (point : IndexCursor.Point chars) :
    (c.restore (.of chars point.index)).Follows origin stands (d.goTo point) := by
  cases healthy : d.failed with
  | true =>
    obtain ⟨reader, placed, hrestore⟩ := restore_eq (P := Reader.PlacedAt origin)
      (.of chars point.index) h.placed (h.placed.moveBy serves.steady.moves _)
    rw [hrestore]
    exact ⟨⟨h.failed, h.fault, placed, fun other => by cases healthy.symm.trans other⟩, rfl, rfl,
      fun _ => rfl, fun other => by cases healthy.symm.trans other⟩
  | false =>
    obtain ⟨reader, after, hrestore⟩ := restore_eq (.of chars point.index) (h.serves healthy)
      (serves.moveBy (h.serves healthy) point.inside)
    rw [hrestore]
    exact ⟨⟨h.failed, h.fault, serves.placed after, fun _ => after⟩, rfl, rfl, fun _ => rfl,
      fun _ => .inl ⟨rfl, rfl⟩⟩

/-- The mark of the cursor is that of the index. -/
theorem Follows.mark_eq (h : c.Follows origin stands d) : c.mark = .of chars d.index := by
  rw [mark, h.byteOffset, h.position, Point.of]

/-- What the cursor has looked at and what is still to be decoded is what is left of the document. -/
theorem Follows.exists_start (h : c.Follows origin stands d) : ∃ start, start ≤ chars.length ∧
    (d.failed = false → c.physical = offsetOf chars start) ∧
    c.peeked.toList ++ (d.scan (chars.drop start)).1 = (d.scan (chars.drop d.index)).1 := by
  cases healthy : d.failed with
  | true =>
    refine ⟨d.index, d.inside, fun other => (by cases other), ?_⟩
    rw [h.broken healthy, Option.toList_none, List.nil_append]
  | false =>
    rcases h.ahead healthy with ⟨hpeeked, hphysical⟩ | ⟨hlt, hpeeked, hphysical⟩
    · exact ⟨d.index, d.inside, fun _ => hphysical, by rw [hpeeked, Option.toList_none, List.nil_append]⟩
    · refine ⟨d.index + 1, hlt, fun _ => hphysical, ?_⟩
      rw [hpeeked, IndexCursor.scan, IndexCursor.scan, if_neg (by simp [healthy]),
        if_neg (by simp [healthy]), List.drop_eq_getElem_cons hlt]
      rfl

/-- Both find the same rest of the document, and stay where they are. -/
theorem Follows.remaining (h : c.Follows origin stands d)
    (serves : ServesAnywhere origin chars stop stands) :
    (Cursor.remaining c).1 = (Cursor.remaining d).1 ∧
      Follows origin stands (Cursor.remaining c).2 (Cursor.remaining d).2 := by
  obtain ⟨start, inside, hphysical, hchars⟩ := h.exists_start
  obtain ⟨found, ready⟩ := h.toReady.decodeAll serves inside hphysical
  constructor
  · exact congrArg String.ofList (by rw [found, hchars])
  · have back := ready.restore serves ⟨d.index, d.inside⟩
    have stays : (d.scan (chars.drop start)).2.goTo ⟨d.index, d.inside⟩ =
        (d.scan (chars.drop d.index)).2 :=
      (d.goTo_scan_goTo ⟨d.index, d.inside⟩ _).trans (d.scan_snd_eq _ _)
    rw [stays, ← h.mark_eq] at back
    exact back

/-- Both find the same newlines, and stay where they are. -/
theorem Follows.sourceMap (h : c.Follows origin stands d)
    (serves : ServesAnywhere origin chars stop stands) :
    (Cursor.sourceMap c).1 = (Cursor.sourceMap d).1 ∧
      Follows origin stands (Cursor.sourceMap c).2 (Cursor.sourceMap d).2 := by
  have away : Follows origin stands (c.restore ⟨0, 0⟩) (d.goTo ⟨0, Nat.zero_le _⟩) := by
    have away := h.toReady.restore serves ⟨0, Nat.zero_le _⟩
    rwa [Point.of, offsetOf_zero] at away
  have hphysical (healthy : d.failed = false) : (c.restore ⟨0, 0⟩).physical = offsetOf chars 0 := by
    rcases away.ahead healthy with ⟨-, hphysical⟩ | ⟨hlt, hpeeked, -⟩
    · exact hphysical
    · cases hpeeked
  obtain ⟨found, ready⟩ := away.toReady.decodeAll serves (Nat.zero_le _) hphysical
  rw [List.drop_zero] at found ready
  constructor
  · exact congrArg SourceMap.ofChars (found.trans (d.scan_goTo_fst _ chars))
  · have back := ready.restore serves ⟨d.index, d.inside⟩
    rw [d.goTo_scan_goTo, ← h.mark_eq] at back
    exact back

/-- Both are shown in the same way. -/
theorem Follows.describe_eq (h : c.Follows origin stands d) : c.describe = d.describe := by
  unfold ByteCursor.describe IndexCursor.describe
  rw [h.position, h.byteOffset, h.failed]

/-- In a session a cursor over bytes cannot be told from an index into its document. -/
def indexed (serves : ServesAnywhere origin chars stop stands) :
    Cursor.Mirror ByteCursor (IndexCursor chars stop) where
  alike c d := c.Follows origin stands d
  points p q := p = .of chars q.index
  position_eq h := h.position
  peek_alike h := h.peek serves
  read_alike h := h.read serves
  remaining_alike h := h.remaining serves
  sourceMap_alike h := h.sourceMap serves
  takeFault_alike h := ⟨h.fault, ⟨h.failed, rfl, h.placed, h.serves⟩, h.position, h.byteOffset, h.broken,
    h.ahead⟩
  mark_alike h := ⟨h.mark_eq, h⟩
  restore_alike {c d p q} h points := by
    obtain rfl := points
    exact h.toReady.restore serves q
  release_alike h _ := h
  sharing_eq := rfl
  describe_eq h := h.describe_eq
  describePoint_eq points := congrArg Point.describe points
  suffix_eq _ := rfl
  takeEvents_alike h := ⟨rfl, h⟩

end ByteCursor

variable {R : Type → Type} {α : Type}

/-- All answers of a session over the bytes of a steady source, and the positions of all handles after each
command, are those of an index into the document of the source, wherever the source stands at first, however
its bytes come in pieces, wherever its reads start to fail and with what, and whatever room the buffer has. -/
theorem session_ofSource_eq_index (origin : Source) (steady : origin.Steady)
    (chars : List Char) (stop : Option Fault) (hdoc : origin.delivering.Decodes chars stop)
    (capacity : Nat) (grammar : Grammar R) (budget : Nat) (commands : List (Nat × Command R α)) :
    ((Session.ofCursor (ByteCursor.ofSource origin capacity)).run grammar budget commands).map Prod.fst =
      ((Session.ofCursor (IndexCursor.start chars stop)).run grammar budget commands).map Prod.fst := by
  obtain ⟨stands, serves, fresh⟩ := ByteCursor.exists_servesAnywhere hdoc steady
  exact Session.answers_eq (m := ByteCursor.indexed serves)
    (ByteCursor.follows_start fresh capacity) grammar budget commands

/-- The bytes `x`, `a`, `\xff` of a source that stands behind the first and delivers one byte at a time: two
handles share an index into the document `a`, and the fault behind it is met once. -/
theorem session_ofSource_eq_index_malformed :
    ((Session.ofCursor (ByteCursor.ofSource
        { Source.ofBytes #[120, 97, 0xff] with position := 1, chunk := some 1 } 4)).run Grammar.empty 0
      [(0, .peek), (0, .copy), (1, .mark "start"), (1, .read), (0, .remaining), (1, .takeFault),
        (0, .restore "start"), (1, .peek), (0, .takeFault)]).map Prod.fst =
    some [(.character (some 'a'), [0]), (.handle 1, [0, 0]),
      (.text "IoResetPoint \x7b byte_offset: 0, position: 0 \x7d", [0, 0]),
      (.character (some 'a'), [1, 1]), (.text "", [1, 1]), (.fault (some .malformedText), [1, 1]),
      (.nothing, [0, 0]), (.character none, [0, 0]), (.fault (α := Unit) none, [0, 0])] := by
  rw [session_ofSource_eq_index _ ⟨fun _ => rfl, fun _ => rfl⟩ ['a'] (some .malformedText) ⟨[0xff], rfl, rfl⟩]
  rfl

end Parsing
