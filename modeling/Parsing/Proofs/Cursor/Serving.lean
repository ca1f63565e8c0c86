import Parsing.Proofs.Cursor.Decoding
import Parsing.Proofs.Cursor.Placing

/-!
# Readers that serve a document

What a cursor over bytes needs from its reader is little: at the offset of a character that character can be
decoded, and at the end of the document nothing can be decoded and the fault that stands there is met, if one
does, unless a read fails in its turn before. If the source is steady that is never so, and the reader can also
be moved to the offset of any character. Every source provides a reader that does this, also a source whose
reads deliver no bytes at all. The document of such a source is empty.
-/

namespace Parsing

open Bytes

/-- The same source without the bytes that it never delivers. Reads that deliver no bytes say that the
source is at its end. -/
def Bytes.Source.delivering (s : Source) : Source :=
  if s.chunk = some 0 then { s with bytes := #[] } else s

namespace ByteCursor

/-- A reader that stands at an offset, in the sense of `stands`, serves a document until it breaks off. -/
structure Serves (origin : Source) (chars : List Char) (stop : Option Fault)
    (stands : Nat → Reader → Prop) : Prop where
  placed : ∀ {offset r}, stands offset r → r.PlacedAt origin offset
  decode_char : ∀ {c : ByteCursor} {index : Nat} {char : Char}, c.failed = false →
    stands c.physical c.reader → c.physical = offsetOf chars index → chars[index]? = some char →
    BreaksOff origin c c.decode ∨
    ∃ reader, c.decode = (some char, { c with reader, physical := offsetOf chars (index + 1) }) ∧
      stands (offsetOf chars (index + 1)) reader
  decode_end : ∀ {c : ByteCursor}, c.failed = false → stands c.physical c.reader →
    c.physical = offsetOf chars chars.length →
    BreaksOff origin c c.decode ∨
    ∃ reader physical, c.decode = (none, stop.elim { c with reader, physical }
        (fail { c with reader, physical })) ∧
      (stop = none → physical = c.physical ∧ stands physical reader)

/-- A reader that serves a document of a steady source and can be moved to any character of it. -/
structure ServesAnywhere (origin : Source) (chars : List Char) (stop : Option Fault)
    (stands : Nat → Reader → Prop) : Prop extends Serves origin chars stop stands where
  steady : origin.Steady
  moveBy : ∀ {offset r} {target : Nat}, stands offset r → target ≤ chars.length →
    ∃ after, r.moveBy ((offsetOf chars target : Int) - offset) = (.ok (), after) ∧
      stands (offsetOf chars target) after

variable {origin : Source} {chars : List Char} {stop : Option Fault}

/-- The document is served by a source that delivers bytes. -/
theorem serves_standsAt (hchunk : origin.chunk ≠ some 0) (hdoc : origin.Decodes chars stop) :
    Serves origin chars stop fun offset r => r.StandsAt origin offset where
  placed h := ⟨h.plan.moveFault, h.consumed_le, h.place⟩
  decode_char {c index char} healthy stands hphysical hchar := by
    have hfirst := hdoc.first?_char hchar
    rw [← hphysical] at hfirst
    refine (decode_ok hchunk healthy stands hfirst).imp_right fun ⟨reader, hdecode, after⟩ => ?_
    rw [hphysical, ← offsetOf_succ hchar] at hdecode after
    exact ⟨reader, hdecode, after⟩
  decode_end {c} healthy stands hphysical := by
    have hfirst := hdoc.first?_end (Nat.le_refl chars.length)
    rw [← hphysical] at hfirst
    exact decode_error hchunk healthy stands hfirst

/-- Such a source can be moved to any character, if it is steady. -/
theorem servesAnywhere_standsAt (hchunk : origin.chunk ≠ some 0) (hdoc : origin.Decodes chars stop)
    (steady : origin.Steady) :
    ServesAnywhere origin chars stop fun offset r => r.StandsAt origin offset where
  toServes := serves_standsAt hchunk hdoc
  steady := steady
  moveBy {offset r target} stands _ := by
    rcases stands.moveBy (hdoc.offsetOf_le target) with moved | ⟨fault, after, count, -, hfault⟩
    · exact moved
    · cases (steady.moves count).symm.trans hfault

/-- A reader at the start of a source whose reads deliver no bytes, as it stays for ever. -/
structure Starved (origin : Source) (offset : Nat) (r : Reader) : Prop where
  start : offset = 0
  plan : r.source.SamePlan origin
  place : r.source.position = origin.position
  buffer : r.buffer = #[]
  consumed : r.consumed = 0

/-- A source whose reads deliver no bytes has an empty document. -/
theorem decodes_delivering_of_chunk_zero (hchunk : origin.chunk = some 0)
    (hdoc : origin.delivering.Decodes chars stop) :
    chars = [] ∧ stop = origin.delivering.behind := by
  obtain ⟨tail, hbytes, hstop⟩ := hdoc
  have hreadable : origin.delivering.readable = [] := by
    rw [Source.delivering, if_pos hchunk]
    simp only [Source.readable, Source.available]
    split <;> simp
  obtain ⟨hencoded, rfl⟩ := List.append_eq_nil_iff.1 (hbytes.symm.trans hreadable)
  refine ⟨?_, (Except.error.inj hstop).symm⟩
  cases chars with
  | nil => rfl
  | cons char chars =>
    obtain ⟨lead, more, hchar, -⟩ := Utf8.following?_utf8EncodeChar char
    rw [Utf8.encode_cons, hchar] at hencoded
    cases hencoded

/-- A read that delivers no bytes, or fails where reads start to fail or in its turn. -/
theorem transfer_of_chunk_zero {s : Source} (hplan : s.SamePlan origin) (hchunk : origin.chunk = some 0)
    (place : s.position = origin.position) (capacity : Nat) :
    (∃ fault after, s.transfer capacity = (.error fault, after) ∧ origin.FailsReading fault) ∨
    ∃ after, s.transfer capacity = (origin.delivering.behind.elim (.ok #[]) .error, after) ∧
      after.SamePlan origin ∧ after.position = origin.position := by
  have hbehind : origin.delivering.behind = s.breakdown.bind fun breakdown =>
      if breakdown.place ≤ s.position then some breakdown.fault else none := by
    rw [Source.delivering, if_pos hchunk, hplan.breakdown, place, Source.behind]
    cases origin.breakdown with
    | none => rfl
    | some breakdown => simp only [List.size_toArray, List.length_nil, Nat.zero_max, Option.bind_some]
  have hfault : s.fault? = origin.delivering.behind ∨
      s.fault? = s.readFault s.reads ∧ origin.delivering.behind = none := by
    rw [hbehind, Source.fault?]
    cases s.breakdown with
    | none => exact .inr ⟨rfl, rfl⟩
    | some breakdown =>
      by_cases reached : breakdown.place ≤ s.position
      · exact .inl (by simp only [Option.bind_some, if_pos reached])
      · exact .inr (by simp only [Option.bind_some, if_neg reached, and_self])
  have hempty : (s.deliver capacity).1 = #[] := by
    have hnone : s.deliverable capacity = 0 := by
      rw [Source.deliverable, hplan.chunk, hchunk]
      split <;> simp
    rw [Source.deliver, hnone, Nat.add_zero, Array.extract_empty_of_stop_le_start (Nat.le_refl _)]
  rcases Source.transfer_of_empty hfault fun _ => hempty with
    ⟨fault, after, htransfer, failing⟩ | ⟨after, htransfer, plan, stays⟩
  · exact .inl ⟨fault, after, htransfer, hplan.failsReading failing⟩
  · exact .inr ⟨after, htransfer, plan.trans hplan, stays.trans place⟩

namespace Starved

variable {c : ByteCursor} {r : Reader} {offset : Nat}

/-- The reader hands out nothing, and stays as it is, unless a read fails in its turn. -/
theorem next (h : Starved origin offset r) (hchunk : origin.chunk = some 0) :
    (∃ fault after, r.next = (.error fault, after) ∧ origin.FailsReading fault) ∨
    ∃ after, r.next = (origin.delivering.behind.elim (.ok none) .error, after) ∧
      Starved origin offset after := by
  have used : r.buffer.size ≤ r.consumed := by simp [h.buffer]
  obtain ⟨s, plan, place, hrefill⟩ := Reader.refillAfter_eq r r.source.pending
  rcases transfer_of_chunk_zero (plan.trans h.plan) hchunk (place.trans h.place) r.capacity with
    ⟨fault, source, htransfer, failing⟩ | ⟨source, htransfer, hplan, hplace⟩
  · rw [htransfer] at hrefill
    exact .inl ⟨fault, _, Reader.next_of_fault used hrefill, failing⟩
  rw [htransfer] at hrefill
  cases hbehind : origin.delivering.behind with
  | none =>
    rw [hbehind] at hrefill
    refine .inr ⟨{ r with source, buffer := #[], consumed := 0 }, ?_, h.start, hplan, hplace, rfl, rfl⟩
    simp only [Reader.next, Reader.takeBuffered_of_usedUp used, Reader.refill, hrefill, Option.elim_none]
    rfl
  | some fault =>
    rw [hbehind] at hrefill
    exact .inr ⟨r.emptied source, Reader.next_of_fault used hrefill, h.start, hplan, hplace, rfl, rfl⟩

/-- The empty document is served by a source whose reads deliver no bytes. -/
theorem serves (hchunk : origin.chunk = some 0) :
    Serves origin [] origin.delivering.behind (Starved origin) where
  placed h := ⟨h.plan.moveFault, by simp [h.buffer, h.consumed], by
    rw [h.start, h.place, h.buffer, h.consumed]
    rfl⟩
  decode_char _ _ _ hchar := by cases hchar
  decode_end {c} healthy stands _ := by
    rcases stands.next hchunk with ⟨fault, reader, hnext, failing⟩ | ⟨reader, hnext, after⟩
    · exact .inl (breaksOff_decode healthy ⟨reader, c.physical, fault, by rw [nextByte, hnext], failing⟩)
    · refine .inr ⟨reader, c.physical, ?_, fun _ => ⟨rfl, after⟩⟩
      rw [ByteCursor.decode, if_neg (Bool.eq_false_iff.1 healthy), nextByte, hnext]
      cases origin.delivering.behind <;> rfl

/-- There is nowhere to go but to the start, for which the source need not be moved. -/
theorem moveBy (h : Starved origin offset r) {target : Nat} (inside : target ≤ ([] : List Char).length) :
    ∃ after, r.moveBy ((offsetOf [] target : Int) - offset) = (.ok (), after) ∧
      Starved origin (offsetOf [] target) after := by
  obtain rfl : target = 0 := Nat.le_zero.1 inside
  refine ⟨{ r with consumed := 0 }, ?_, rfl, h.plan, h.place, h.buffer, rfl⟩
  simp [Reader.moveBy, h.start, h.buffer, h.consumed]

end Starved

/-- Every steady source serves its document. -/
theorem exists_servesAnywhere (hdoc : origin.delivering.Decodes chars stop) (steady : origin.Steady) :
    ∃ stands, ServesAnywhere origin chars stop stands ∧ ∀ capacity, stands 0 (.ofSource origin capacity) := by
  by_cases hchunk : origin.chunk = some 0
  · obtain ⟨rfl, rfl⟩ := decodes_delivering_of_chunk_zero hchunk hdoc
    have serves : ServesAnywhere origin [] origin.delivering.behind (Starved origin) :=
      ⟨Starved.serves hchunk, steady, fun starved inside => starved.moveBy inside⟩
    exact ⟨_, serves, fun _ => ⟨rfl, .refl _, rfl, rfl, rfl⟩⟩
  · rw [Source.delivering, if_neg hchunk] at hdoc
    exact ⟨_, servesAnywhere_standsAt hchunk hdoc steady, Reader.standsAt_ofSource origin⟩

namespace Serves

variable {stands : Nat → Reader → Prop}

/-- Everything that is left of the document can be decoded, up to its end, unless a read fails in its turn. -/
theorem decodeAll (h : Serves origin chars stop stands) (index : Nat) (c : ByteCursor)
    (inside : index ≤ chars.length) (newestFirst : List Char) (healthy : c.failed = false)
    (hstands : stands c.physical c.reader) (hphysical : c.physical = offsetOf chars index) :
    ((c.decodeAll newestFirst).2.failed = true ∧ ∃ fault, origin.FailsReading fault) ∨
    ∃ reader physical, c.decodeAll newestFirst = (newestFirst.reverse ++ chars.drop index,
        stop.elim { c with reader, physical } (fail { c with reader, physical })) ∧
      (stop = none → stands physical reader) := by
  induction hleft : chars.length - index generalizing index c newestFirst with
  | zero =>
    obtain rfl : index = chars.length := by omega
    rcases h.decode_end healthy hstands hphysical with
      ⟨reader, physical, fault, hdecode, failing⟩ | ⟨reader, physical, hdecode, after⟩
    · rw [decodeAll_of_none hdecode]
      exact .inl ⟨rfl, fault, failing⟩
    · rw [decodeAll_of_none hdecode, List.drop_length, List.append_nil]
      exact .inr ⟨reader, physical, rfl, fun hstop => (after hstop).2⟩
  | succ left ih =>
    have hlt : index < chars.length := by omega
    rcases h.decode_char healthy hstands hphysical (List.getElem?_eq_getElem hlt) with
      ⟨reader, physical, fault, hdecode, failing⟩ | ⟨reader, hdecode, after⟩
    · rw [decodeAll_of_none hdecode]
      exact .inl ⟨rfl, fault, failing⟩
    · rw [decodeAll_of_some hdecode]
      refine (ih (index + 1) { c with reader, physical := offsetOf chars (index + 1) } hlt
        (chars[index] :: newestFirst) healthy after rfl (by omega)).imp_right ?_
      rintro ⟨final, physical, hall, last⟩
      refine ⟨final, physical, ?_, last⟩
      rw [hall, List.drop_eq_getElem_cons hlt, List.reverse_cons, List.append_assoc, List.singleton_append]

end Serves

namespace ServesAnywhere

variable {stands : Nat → Reader → Prop} {c : ByteCursor} {index : Nat}

/-- The reader never breaks off. -/
theorem not_failsReading (h : ServesAnywhere origin chars stop stands) : ¬∃ fault, origin.FailsReading fault :=
  fun ⟨fault, failing⟩ => h.steady.not_failsReading fault failing

/-- At the offset of a character the character is decoded. -/
theorem decode_char_eq (h : ServesAnywhere origin chars stop stands) {char : Char} (healthy : c.failed = false)
    (hstands : stands c.physical c.reader) (hphysical : c.physical = offsetOf chars index)
    (hchar : chars[index]? = some char) :
    ∃ reader, c.decode = (some char, { c with reader, physical := offsetOf chars (index + 1) }) ∧
      stands (offsetOf chars (index + 1)) reader :=
  (h.decode_char healthy hstands hphysical hchar).resolve_left fun broken => h.not_failsReading broken.failed.2

/-- At the end of the document the fault that stands there is met, if one does. -/
theorem decode_end_eq (h : ServesAnywhere origin chars stop stands) (healthy : c.failed = false)
    (hstands : stands c.physical c.reader) (hphysical : c.physical = offsetOf chars chars.length) :
    ∃ reader physical, c.decode = (none, stop.elim { c with reader, physical }
        (fail { c with reader, physical })) ∧
      (stop = none → physical = c.physical ∧ stands physical reader) :=
  (h.decode_end healthy hstands hphysical).resolve_left fun broken => h.not_failsReading broken.failed.2

/-- Everything that is left of the document is decoded. -/
theorem decodeAll_eq (h : ServesAnywhere origin chars stop stands) (inside : index ≤ chars.length)
    (newestFirst : List Char) (healthy : c.failed = false) (hstands : stands c.physical c.reader)
    (hphysical : c.physical = offsetOf chars index) :
    ∃ reader physical, c.decodeAll newestFirst = (newestFirst.reverse ++ chars.drop index,
        stop.elim { c with reader, physical } (fail { c with reader, physical })) ∧
      (stop = none → stands physical reader) :=
  (h.toServes.decodeAll index c inside newestFirst healthy hstands hphysical).resolve_left
    fun broken => h.not_failsReading broken.2

end ServesAnywhere

end ByteCursor

end Parsing
