import Parsing.Cursor.Bytes
import Parsing.Proofs.Bytes.Decoding
import Parsing.Proofs.Bytes.Reading

/-!
# The document behind a byte cursor

A source determines a document: the characters whose UTF-8 form its readable bytes begin with, and
what stops a decoder behind them, be it the end or a fault. A cursor that has not met a fault decodes
exactly these characters, one at a time, and stops there and then. It may break off before, with the
fault of a read that fails in its turn.
-/

namespace Parsing

/-- The characters that can be decoded from what a source has to read, and the fault that a decoder
meets behind them, none at a real end. -/
def Bytes.Source.Decodes (origin : Bytes.Source) (chars : List Char) (stop : Option Fault) : Prop :=
  ∃ tail, origin.readable = Bytes.Utf8.encode chars ++ tail ∧
    Bytes.Utf8.first? origin.behind tail = .error stop

/-- The offset of a character in the UTF-8 form of a document. -/
def Bytes.offsetOf (chars : List Char) (index : Nat) : Nat :=
  (Bytes.Utf8.encode (chars.take index)).length

namespace Bytes

/-- The first character is at the start. -/
@[simp] theorem offsetOf_zero (chars : List Char) : offsetOf chars 0 = 0 := by simp [offsetOf]

/-- Each character takes as many bytes as its UTF-8 form has. -/
theorem offsetOf_succ {chars : List Char} {index : Nat} {char : Char} (h : chars[index]? = some char) :
    offsetOf chars (index + 1) = offsetOf chars index + char.utf8Size := by
  rw [offsetOf, List.take_add_one, h, Utf8.encode_append, List.length_append, ← offsetOf]
  simp [Utf8.encode_nil]

variable {origin : Source} {chars : List Char} {stop : Option Fault}

/-- Every source has a document. -/
theorem Source.exists_decodes (origin : Source) : ∃ chars stop, origin.Decodes chars stop := by
  obtain ⟨chars, tail, stop, h⟩ := Utf8.exists_encode_append origin.behind origin.readable
  exact ⟨chars, stop, tail, h⟩

/-- A document that ends without a fault is everything the source holds from where it stands. -/
theorem Source.Decodes.readable_eq (h : origin.Decodes chars none) :
    origin.behind = none ∧ origin.readable = Utf8.encode chars := by
  obtain ⟨tail, hbytes, hstop⟩ := h
  obtain ⟨rfl, hbehind⟩ := Utf8.eq_nil_of_first?_error_none hstop
  exact ⟨hbehind, by rw [hbytes, List.append_nil]⟩

/-- The offset of a character is inside the readable bytes. -/
theorem Source.Decodes.offsetOf_le (h : origin.Decodes chars stop) (index : Nat) :
    offsetOf chars index ≤ origin.readable.length := by
  obtain ⟨tail, hbytes, -⟩ := h
  have hchars : Utf8.encode chars = Utf8.encode (chars.take index) ++ Utf8.encode (chars.drop index) := by
    rw [← Utf8.encode_append, List.take_append_drop]
  rw [hbytes, hchars, offsetOf]
  simp only [List.length_append]
  omega

/-- At the offset of a character a decoder finds that character, and the next one's offset behind. -/
theorem Source.Decodes.first?_char (h : origin.Decodes chars stop) {index : Nat} {char : Char}
    (hchar : chars[index]? = some char) :
    Utf8.first? origin.behind (origin.readable.drop (offsetOf chars index)) =
      .ok (char, origin.readable.drop (offsetOf chars (index + 1))) := by
  obtain ⟨tail, hbytes, -⟩ := h
  have hsplit (n : Nat) :
      origin.readable.drop (offsetOf chars n) = Utf8.encode (chars.drop n) ++ tail := by
    have hchars : Utf8.encode chars = Utf8.encode (chars.take n) ++ Utf8.encode (chars.drop n) := by
      rw [← Utf8.encode_append, List.take_append_drop]
    rw [offsetOf, hbytes, hchars, List.append_assoc, List.drop_left]
  obtain ⟨hlt, hget⟩ := List.getElem?_eq_some_iff.1 hchar
  rw [hsplit, hsplit, List.drop_eq_getElem_cons hlt, hget, Utf8.encode_cons, List.append_assoc,
    Utf8.first?_utf8EncodeChar_append]

/-- Behind the last character a decoder stops. -/
theorem Source.Decodes.first?_end (h : origin.Decodes chars stop) {index : Nat}
    (hend : chars.length ≤ index) :
    Utf8.first? origin.behind (origin.readable.drop (offsetOf chars index)) = .error stop := by
  obtain ⟨tail, hbytes, hstop⟩ := h
  rw [offsetOf, List.take_of_length_le hend, hbytes, List.drop_left, hstop]

end Bytes

open Bytes

namespace ByteCursor

variable {origin : Source} {c : ByteCursor}

/-- What was looked for is not found, because a read of the source failed in its turn. -/
def BreaksOff {β : Type} (origin : Source) (c : ByteCursor) (report : Option β × ByteCursor) : Prop :=
  ∃ reader physical fault, report = (none, fail { c with reader, physical } fault) ∧
    origin.FailsReading fault

/-- What breaks off has met a fault. -/
theorem BreaksOff.failed {β : Type} {report : Option β × ByteCursor} (h : BreaksOff origin c report) :
    report.2.failed = true ∧ ∃ fault, origin.FailsReading fault := by
  obtain ⟨reader, physical, fault, rfl, failing⟩ := h
  exact ⟨rfl, fault, failing⟩

/-- While bytes are left, the next one is handed out. -/
theorem nextByte_cons (hchunk : origin.chunk ≠ some 0) (stands : c.reader.StandsAt origin c.physical)
    {byte : UInt8} {rest : List UInt8} (hbytes : origin.readable.drop c.physical = byte :: rest) :
    BreaksOff origin c c.nextByte ∨
    ∃ reader, c.nextByte = (some byte, { c with reader, physical := c.physical + 1 }) ∧
      reader.StandsAt origin (c.physical + 1) := by
  rcases stands.next_cons hchunk hbytes with ⟨fault, reader, hnext, failing⟩ | ⟨reader, hnext, after⟩
  · exact .inl ⟨reader, c.physical, fault, by rw [nextByte, hnext], failing⟩
  · exact .inr ⟨reader, by rw [nextByte, hnext], after⟩

/-- Where no bytes are left, the fault behind them is met, if there is one. -/
theorem nextByte_nil (stands : c.reader.StandsAt origin c.physical)
    (hbytes : origin.readable.drop c.physical = []) :
    BreaksOff origin c c.nextByte ∨
    ∃ reader, c.nextByte = (none, origin.behind.elim { c with reader } (fail { c with reader })) ∧
      reader.StandsAt origin c.physical := by
  rcases stands.next_nil hbytes with ⟨fault, reader, hnext, failing⟩ | ⟨reader, hnext, after⟩
  · exact .inl ⟨reader, c.physical, fault, by rw [nextByte, hnext], failing⟩
  · refine .inr ⟨reader, ?_, after⟩
    rw [nextByte, hnext]
    cases origin.behind <;> rfl

/-- Where the first byte is not found, none of them are. -/
theorem breaksOff_nextBytes (broken : BreaksOff origin c c.nextByte) (count : Nat) :
    BreaksOff origin c (c.nextBytes (count + 1)) := by
  obtain ⟨reader, physical, fault, hnext, failing⟩ := broken
  exact ⟨reader, physical, fault, by simp only [nextBytes, hnext], failing⟩

/-- Where the bytes behind the first are not found, none of them are. -/
theorem breaksOff_nextBytes_of_following {count physical : Nat} {reader : Reader} {byte : UInt8}
    (hnext : c.nextByte = (some byte, { c with reader, physical }))
    (broken : BreaksOff origin { c with reader, physical } ({ c with reader, physical }.nextBytes count)) :
    BreaksOff origin c (c.nextBytes (count + 1)) := by
  obtain ⟨final, last, fault, hmore, failing⟩ := broken
  exact ⟨final, last, fault, by simp only [nextBytes, hnext, hmore], failing⟩

/-- As many bytes as are wanted are handed out if there are that many. -/
theorem nextBytes_of_le (hchunk : origin.chunk ≠ some 0) (count : Nat) (c : ByteCursor)
    (stands : c.reader.StandsAt origin c.physical)
    (enough : count ≤ (origin.readable.drop c.physical).length) :
    BreaksOff origin c (c.nextBytes count) ∨
    ∃ reader, c.nextBytes count = (some ((origin.readable.drop c.physical).take count),
        { c with reader, physical := c.physical + count }) ∧
      reader.StandsAt origin (c.physical + count) := by
  induction count generalizing c with
  | zero => exact .inr ⟨c.reader, rfl, stands⟩
  | succ count ih =>
    obtain ⟨byte, rest, hbytes⟩ := List.exists_cons_of_length_pos (Nat.lt_of_lt_of_le (Nat.succ_pos _) enough)
    rcases nextByte_cons hchunk stands hbytes with broken | ⟨reader, hnext, after⟩
    · exact .inl (breaksOff_nextBytes broken count)
    have hrest : origin.readable.drop (c.physical + 1) = rest := by
      rw [← List.drop_drop, hbytes, List.drop_one, List.tail_cons]
    rcases ih { c with reader, physical := c.physical + 1 } after (by
      simp only [hrest]
      simpa [hbytes] using enough) with broken | ⟨final, hmore, last⟩
    · exact .inl (breaksOff_nextBytes_of_following hnext broken)
    refine .inr ⟨final, ?_, by simpa [Nat.add_assoc, Nat.add_comm 1] using last⟩
    simp only [nextBytes, hnext, hmore, hrest, hbytes, List.take_succ_cons, Nat.add_assoc,
      Nat.add_comm 1]

/-- If there are fewer bytes than wanted, the fault behind them is met, if there is one. -/
theorem nextBytes_of_lt (hchunk : origin.chunk ≠ some 0) (count : Nat) (c : ByteCursor)
    (stands : c.reader.StandsAt origin c.physical)
    (short : (origin.readable.drop c.physical).length < count) :
    BreaksOff origin c (c.nextBytes count) ∨
    ∃ reader physical, c.nextBytes count = (none, origin.behind.elim { c with reader, physical }
      (fail { c with reader, physical })) := by
  induction count generalizing c with
  | zero => exact absurd short (Nat.not_lt_zero _)
  | succ count ih =>
    cases hbytes : origin.readable.drop c.physical with
    | nil =>
      rcases nextByte_nil stands hbytes with broken | ⟨reader, hnext, -⟩
      · exact .inl (breaksOff_nextBytes broken count)
      · exact .inr ⟨reader, c.physical, by simp only [nextBytes, hnext]⟩
    | cons byte rest =>
      rcases nextByte_cons hchunk stands hbytes with broken | ⟨reader, hnext, after⟩
      · exact .inl (breaksOff_nextBytes broken count)
      have hrest : origin.readable.drop (c.physical + 1) = rest := by
        rw [← List.drop_drop, hbytes, List.drop_one, List.tail_cons]
      rcases ih { c with reader, physical := c.physical + 1 } after (by
        simp only [hrest]
        simpa [hbytes] using short) with broken | ⟨final, physical, hmore⟩
      · exact .inl (breaksOff_nextBytes_of_following hnext broken)
      · exact .inr ⟨final, physical, by simp only [nextBytes, hnext, hmore]⟩

/-- Scanning ends where no character is decoded. -/
theorem decodeAll_of_none {after : ByteCursor} (h : c.decode = (none, after)) (newestFirst : List Char) :
    c.decodeAll newestFirst = (newestFirst.reverse, after) := by
  rw [decodeAll]
  split
  · next ran => rw [← (Prod.mk.inj (h.symm.trans ran)).2]
  · next ran => cases h.symm.trans ran

/-- Scanning goes on behind a character. -/
theorem decodeAll_of_some {char : Char} {after : ByteCursor} (h : c.decode = (some char, after))
    (newestFirst : List Char) : c.decodeAll newestFirst = after.decodeAll (char :: newestFirst) := by
  rw [decodeAll]
  split
  · next ran => cases h.symm.trans ran
  · next ran =>
    obtain ⟨hsame, rfl⟩ := Prod.mk.inj (h.symm.trans ran)
    rw [Option.some.inj hsame]

/-- A cursor that has met a fault decodes nothing. -/
theorem decode_of_failed (h : c.failed = true) : c.decode = (none, c) := by
  rw [decode, if_pos h]

/-- A cursor that has met a fault finds nothing more. -/
theorem decodeAll_of_failed (h : c.failed = true) (newestFirst : List Char) :
    c.decodeAll newestFirst = (newestFirst.reverse, c) :=
  decodeAll_of_none (decode_of_failed h) newestFirst

/-- Where the first byte is not found, decoding breaks off. -/
theorem breaksOff_decode (healthy : c.failed = false) (broken : BreaksOff origin c c.nextByte) :
    BreaksOff origin c c.decode := by
  obtain ⟨reader, physical, fault, hnext, failing⟩ := broken
  refine ⟨reader, physical, fault, ?_, failing⟩
  rw [decode, if_neg (Bool.eq_false_iff.1 healthy), hnext]

/-- Where the bytes that follow are not found, decoding breaks off with the same fault. -/
theorem breaksOff_decode_of_following (healthy : c.failed = false) {lead : UInt8} {reader : Reader}
    {physical count : Nat} (hnext : c.nextByte = (some lead, { c with reader, physical }))
    (hcount : Utf8.following? lead = some count)
    (broken : BreaksOff origin { c with reader, physical } ({ c with reader, physical }.nextBytes count)) :
    BreaksOff origin c c.decode := by
  obtain ⟨final, last, fault, hmore, failing⟩ := broken
  refine ⟨final, last, fault, ?_, failing⟩
  simp only [decode, if_neg (Bool.eq_false_iff.1 healthy), hnext, hcount, hmore]
  rfl

/-- Where a decoder finds a character, the cursor decodes it and stands behind it. -/
theorem decode_ok (hchunk : origin.chunk ≠ some 0) (healthy : c.failed = false)
    (stands : c.reader.StandsAt origin c.physical) {char : Char} {rest : List UInt8}
    (hfirst : Utf8.first? origin.behind (origin.readable.drop c.physical) = .ok (char, rest)) :
    BreaksOff origin c c.decode ∨
    ∃ reader, c.decode = (some char, { c with reader, physical := c.physical + char.utf8Size }) ∧
      reader.StandsAt origin (c.physical + char.utf8Size) := by
  have hbytes := Utf8.eq_of_first?_ok hfirst
  obtain ⟨lead, more, hencoded, hcount⟩ := Utf8.following?_utf8EncodeChar char
  have hsize : char.utf8Size = more.length + 1 := by
    rw [← String.length_utf8EncodeChar, hencoded, List.length_cons]
  have hdecode := Utf8.decode?_utf8EncodeChar char
  rw [hencoded] at hbytes hdecode
  rcases nextByte_cons hchunk stands hbytes with broken | ⟨reader, hnext, after⟩
  · exact .inl (breaksOff_decode healthy broken)
  have hrest : origin.readable.drop (c.physical + 1) = more ++ rest := by
    rw [← List.drop_drop, hbytes, List.cons_append, List.drop_one, List.tail_cons]
  rcases nextBytes_of_le hchunk more.length { c with reader, physical := c.physical + 1 } after
    (by simp [hrest]) with broken | ⟨final, hmore, last⟩
  · exact .inl (breaksOff_decode_of_following healthy hnext hcount broken)
  simp only [hrest, List.take_left] at hmore last
  refine .inr ⟨final, ?_, by rw [hsize]; simpa [Nat.add_assoc, Nat.add_comm 1] using last⟩
  rw [decode, if_neg (Bool.eq_false_iff.1 healthy)]
  simp only [hnext, hcount, hmore, hdecode, hsize, Nat.add_assoc, Nat.add_comm 1]

/-- Where a decoder stops, the cursor finds no character, and meets the fault that is there. -/
theorem decode_error (hchunk : origin.chunk ≠ some 0) (healthy : c.failed = false)
    (stands : c.reader.StandsAt origin c.physical) {stop : Option Fault}
    (hfirst : Utf8.first? origin.behind (origin.readable.drop c.physical) = .error stop) :
    BreaksOff origin c c.decode ∨
    ∃ reader physical, c.decode = (none, stop.elim { c with reader, physical }
        (fail { c with reader, physical })) ∧
      (stop = none → physical = c.physical ∧ reader.StandsAt origin physical) := by
  have go : ¬c.failed = true := Bool.eq_false_iff.1 healthy
  cases hbytes : origin.readable.drop c.physical with
  | nil =>
    rcases nextByte_nil stands hbytes with broken | ⟨reader, hnext, after⟩
    · exact .inl (breaksOff_decode healthy broken)
    obtain rfl : origin.behind = stop := by simpa [hbytes, Utf8.first?] using hfirst
    exact .inr ⟨reader, c.physical, by simp only [decode, if_neg go, hnext], fun _ => ⟨rfl, after⟩⟩
  | cons lead others =>
    rcases nextByte_cons hchunk stands hbytes with broken | ⟨reader, hnext, after⟩
    · exact .inl (breaksOff_decode healthy broken)
    have hothers : origin.readable.drop (c.physical + 1) = others := by
      rw [← List.drop_drop, hbytes, List.drop_one, List.tail_cons]
    rw [hbytes, Utf8.first?] at hfirst
    split at hfirst
    · next hcount =>
      obtain rfl : some Fault.malformedText = stop := Except.error.inj hfirst
      exact .inr ⟨reader, c.physical + 1, by simp only [decode, if_neg go, hnext, hcount, Option.elim_some], by simp⟩
    · next count hcount =>
      split at hfirst
      · next short =>
        obtain rfl : some (origin.behind.getD .malformedText) = stop := Except.error.inj hfirst
        rcases nextBytes_of_lt hchunk count { c with reader, physical := c.physical + 1 } after
          (by simpa [hothers] using short) with broken | ⟨final, physical, hmore⟩
        · exact .inl (breaksOff_decode_of_following healthy hnext hcount broken)
        refine .inr ⟨final, physical, ?_, by simp⟩
        simp only [decode, if_neg go, hnext, hcount, hmore]
        cases origin.behind with
        | none => simp [healthy]
        | some fault => simp [fail]
      · next enough =>
        rcases nextBytes_of_le hchunk count { c with reader, physical := c.physical + 1 } after
          (by simpa [hothers] using enough) with broken | ⟨final, hmore, -⟩
        · exact .inl (breaksOff_decode_of_following healthy hnext hcount broken)
        simp only [hothers] at hmore
        split at hfirst
        · next hdecode =>
          obtain rfl : some Fault.malformedText = stop := Except.error.inj hfirst
          exact .inr ⟨final, c.physical + 1 + count,
            by simp only [decode, if_neg go, hnext, hcount, hmore, hdecode, Option.elim_some], by simp⟩
        · cases hfirst

end ByteCursor

end Parsing
