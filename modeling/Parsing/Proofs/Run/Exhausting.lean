import Parsing.Proofs.Run.Indexed
import Parsing.Proofs.Run.Source

/-!
# Reading to the end decodes as much as can be decoded

Bytes begin with the UTF-8 form of some characters, and no other characters can be put in their place or
be added to them: the form of one character is never the beginning of the form of another. Reading one
character after the other from a source finds exactly these characters, however the bytes come in pieces.
If they are not all of the bytes, then what is behind them is a fault.

A source is at its end when a read delivers no bytes. So sources that never deliver any are excluded.
-/

namespace Parsing

open Bytes

namespace Bytes.Utf8

variable {bytes tail : List UInt8} {chars other : List Char}

/-- These are all the characters that can be decoded from the start of the bytes: their UTF-8 form stands
there, and that of no character behind them. -/
structure Longest (chars : List Char) (bytes : List UInt8) : Prop where
  isPrefix : encode chars <+: bytes
  maximal : ∀ char, ¬encode (chars ++ [char]) <+: bytes

/-- A decoder stops exactly where no character begins. -/
theorem exists_first?_error_iff (behind : Option Fault) (bytes : List UInt8) :
    (∃ stop, first? behind bytes = .error stop) ↔ ∀ char, ¬String.utf8EncodeChar char <+: bytes := by
  constructor
  · rintro ⟨stop, stopped⟩ char ⟨rest, rfl⟩
    cases (first?_utf8EncodeChar_append behind char rest).symm.trans stopped
  · intro none
    cases found : first? behind bytes with
    | error stop => exact ⟨stop, rfl⟩
    | ok decoded => exact absurd ⟨decoded.2, (eq_of_first?_ok found).symm⟩ (none decoded.1)

/-- Characters can be added to those decoded from the start exactly if they can be decoded behind them. -/
theorem encode_append_prefix_iff (char : Char) :
    encode (chars ++ [char]) <+: encode chars ++ tail ↔ String.utf8EncodeChar char <+: tail := by
  rw [encode_append, List.prefix_append_right_inj, encode_cons, encode_nil, List.append_nil]

/-- Behind the characters the decoder stops. -/
theorem longest_append_iff (behind : Option Fault) :
    Longest chars (encode chars ++ tail) ↔ ∃ stop, first? behind tail = .error stop := by
  rw [exists_first?_error_iff]
  constructor
  · intro h char found
    exact h.maximal char ((encode_append_prefix_iff char).2 found)
  · intro none
    exact ⟨List.prefix_append _ _, fun char found => none char ((encode_append_prefix_iff char).1 found)⟩

/-- The first character is at the start of the bytes, and the others are all that can be decoded behind
it. -/
theorem Longest.exists_rest {char : Char} (h : Longest (char :: chars) bytes) :
    ∃ rest, bytes = String.utf8EncodeChar char ++ rest ∧ Longest chars rest := by
  obtain ⟨rest, rfl⟩ := h.isPrefix
  refine ⟨encode chars ++ rest, by rw [encode_cons, List.append_assoc], List.prefix_append _ _, ?_⟩
  intro next found
  refine h.maximal next ?_
  rw [List.cons_append, encode_cons, encode_cons, List.append_assoc, List.prefix_append_right_inj]
  exact found

/-- Where nothing can be decoded no character begins. -/
theorem Longest.not_nil {char : Char} {rest : List UInt8} (h : Longest [] (String.utf8EncodeChar char ++ rest)) :
    False := by
  refine h.maximal char ?_
  rw [List.nil_append, encode_cons, encode_nil, List.append_nil]
  exact List.prefix_append _ _

/-- There is only one way to decode as much as can be decoded. -/
theorem Longest.unique (h : Longest chars bytes) (h' : Longest other bytes) : chars = other := by
  induction chars generalizing bytes other with
  | nil =>
    cases other with
    | nil => rfl
    | cons char others =>
      obtain ⟨rest, rfl, -⟩ := h'.exists_rest
      exact h.not_nil.elim
  | cons char chars ih =>
    obtain ⟨rest, rfl, longest⟩ := h.exists_rest
    cases other with
    | nil => exact h'.not_nil.elim
    | cons char' others =>
      obtain ⟨rest', same, longest'⟩ := h'.exists_rest
      -- a decoder finds one character and one rest
      have found := first?_utf8EncodeChar_append none char rest
      rw [same, first?_utf8EncodeChar_append] at found
      obtain ⟨rfl, rfl⟩ := Prod.mk.inj (Except.ok.inj found)
      rw [ih longest longest']

/-- If bytes are left where the decoder stops then they are malformed. -/
theorem eq_of_first?_none_error {lead : UInt8} {rest : List UInt8} {stop : Option Fault}
    (h : first? none (lead :: rest) = .error stop) : stop = some .malformedText := by
  rw [first?] at h
  split at h
  · exact (Except.error.inj h).symm
  · split at h
    · exact (Except.error.inj h).symm
    · split at h
      · exact (Except.error.inj h).symm
      · cases h

end Bytes.Utf8

/-- The document of a source is all that can be decoded of what it has to read. -/
theorem Bytes.Source.Decodes.longest {source : Source} {chars : List Char} {stop : Option Fault}
    (h : source.Decodes chars stop) : Utf8.Longest chars source.readable := by
  obtain ⟨tail, readable, stopped⟩ := h
  rw [readable]
  exact (Utf8.longest_append_iff source.behind).2 ⟨stop, stopped⟩

/-- What stops a decoder behind the document is that bytes are left, which are malformed. -/
theorem Bytes.Source.Decodes.stop_eq {source : Source} {chars : List Char} {stop : Option Fault}
    (h : source.Decodes chars stop) (behind : source.behind = none) :
    stop = if Utf8.encode chars = source.readable then none else some .malformedText := by
  obtain ⟨tail, readable, stopped⟩ := h
  rw [readable]
  rw [behind] at stopped
  cases tail with
  | nil =>
    rw [List.append_nil, if_pos rfl]
    exact (Except.error.inj stopped).symm
  | cons lead rest =>
    rw [if_neg (by simp)]
    exact Utf8.eq_of_first?_none_error stopped

/-- Reading on from an index finds the characters there are, and then asks for one behind the document. -/
theorem IndexCursor.readMany {chars : List Char} {stop : Option Fault} (c : IndexCursor chars stop)
    (healthy : c.failed = false) (newestFirst : List Char) (count : Nat) :
    (Session.readMany c newestFirst count).1 =
        String.ofList (newestFirst.reverse ++ (chars.drop c.index).take count) ∧
      (chars.length - c.index < count → (Session.readMany c newestFirst count).2 =
        IndexCursor.pastEnd { c with index := chars.length, inside := Nat.le_refl _ }) := by
  induction count generalizing c newestFirst with
  | zero => exact ⟨by rw [List.take_zero, List.append_nil]; rfl, nofun⟩
  | succ count ih =>
    rw [Session.readMany]
    by_cases inside : c.index < chars.length
    · have read : Cursor.read c = (some chars[c.index], { c with index := c.index + 1, inside }) := by
        change c.read = _
        rw [IndexCursor.read, if_neg (Bool.eq_false_iff.1 healthy), dif_pos inside]
      obtain ⟨found, reached⟩ := ih { c with index := c.index + 1, inside } healthy (chars[c.index] :: newestFirst)
      rw [read]
      refine ⟨found.trans ?_, fun more => reached (by simp only; omega)⟩
      rw [List.drop_eq_getElem_cons inside, List.take_succ_cons, List.reverse_cons, List.append_assoc,
        List.singleton_append]
    · have read : Cursor.read c = (none, c.pastEnd) := by
        change c.read = _
        rw [IndexCursor.read, if_neg (Bool.eq_false_iff.1 healthy), dif_neg inside]
      have atEnd : c.index = chars.length := Nat.le_antisymm c.inside (Nat.not_lt.1 inside)
      rw [read, List.drop_eq_nil_of_le (Nat.not_lt.1 inside), List.take_nil, List.append_nil]
      refine ⟨rfl, fun _ => ?_⟩
      obtain ⟨index, _, failed, fault⟩ := c
      obtain rfl : index = chars.length := atEnd
      rfl

/-- Behind the document nothing is found. -/
theorem IndexCursor.read_pastEnd {chars : List Char} {stop : Option Fault} (c : IndexCursor chars stop)
    (atEnd : c.index = chars.length) : c.pastEnd.read.1 = none := by
  rw [IndexCursor.read]
  split
  · rfl
  · rw [dif_neg (by rw [index_pastEnd, atEnd]; exact Nat.lt_irrefl _)]

/-- The fault behind the document is met there. -/
theorem IndexCursor.fault_pastEnd {chars : List Char} {stop : Option Fault} (c : IndexCursor chars stop)
    (healthy : c.fault = none) : c.pastEnd.fault = stop := by
  cases stop with
  | none => exact healthy
  | some fault => rw [pastEnd, healthy]; rfl

/-- Reading one character after the other from a source decodes as much as can be decoded, whatever the
room of the buffer, however the bytes come in pieces and whenever a read is interrupted.

* There is just one way to decode as many characters as can be decoded from the bytes of the source, and
  these are the characters that are found, in this order, as many as are asked for.
* When more are asked for, the cursor stands behind the last character and behind the last byte of its
  UTF-8 form, and no more are found. The fault that was met is that the bytes are malformed, if there are
  others behind these characters, and otherwise none was met.
* In particular a text that is written as UTF-8 is read back. -/
theorem reading_decodes_longest (source : Source) (hchunk : source.chunk ≠ some 0)
    (hbreakdown : source.breakdown = none) (steady : source.Steady) (capacity : Nat) :
    ∃ chars, (∀ other, Utf8.Longest other (source.bytes.toList.drop source.position) ↔ other = chars) ∧
      (∀ count, (Session.readMany (ByteCursor.ofSource source capacity) [] count).1 =
        String.ofList (chars.take count)) ∧
      (∀ count after, chars.length < count →
        (Session.readMany (ByteCursor.ofSource source capacity) [] count).2 = after →
        after.position = chars.length ∧ after.byteOffset = (Utf8.encode chars).length ∧
        (Cursor.read after).1 = none ∧ (Cursor.takeFault after).1 =
          if Utf8.encode chars = source.bytes.toList.drop source.position then none else some .malformedText) ∧
      ∀ text, source.Holds text → chars = text.toList := by
  have behind : source.behind = none := by rw [Source.behind, hbreakdown]
  have delivers : source.delivering = source := by rw [Source.delivering, if_neg hchunk]
  obtain ⟨chars, stop, hdoc⟩ := source.exists_decodes
  have longest := hdoc.longest
  obtain ⟨stands, serves, fresh⟩ := ByteCursor.exists_servesAnywhere (delivers ▸ hdoc) steady
  have agrees (count : Nat) := (ByteCursor.indexed serves).readMany count []
    (ByteCursor.follows_start fresh capacity)
  have reads (count : Nat) := (IndexCursor.start chars stop).readMany rfl [] count
  rw [← Source.readable_of_behind_none behind]
  refine ⟨chars, fun other => ⟨fun h => h.unique longest, fun same => same ▸ longest⟩,
    fun count => (agrees count).1.trans (reads count).1, ?_, fun text holds => ?_⟩
  · rintro count after more rfl
    have follows := (agrees count).2
    rw [(reads count).2 more] at follows
    have nothing := (follows.read serves).1
    refine ⟨follows.position.trans (IndexCursor.index_pastEnd _), ?_, nothing.trans ?_, ?_⟩
    · rw [follows.byteOffset, IndexCursor.index_pastEnd, offsetOf, List.take_length]
    · exact IndexCursor.read_pastEnd _ rfl
    · rw [← hdoc.stop_eq behind]
      exact follows.fault.trans (IndexCursor.fault_pastEnd _ rfl)
  · exact longest.unique (holds.decodes hbreakdown).longest

/-- Behind `aé` a byte is malformed, and it comes alone; and `aé` on its own is read back. -/
theorem reading_decodes_longest_malformed :
    let source : Source := { Source.ofBytes #[0x61, 0xc3, 0xa9, 0xff, 0x62] with
      chunk := some 1, interruptions := fun reads => reads % 2, pending := 1 }
    let after := (Session.readMany (ByteCursor.ofSource source 2) [] 9).2
    let written := Source.ofBytes #[0x61, 0xc3, 0xa9]
    (∀ other, Utf8.Longest other [0x61, 0xc3, 0xa9, 0xff, 0x62] ↔ other = ['a', 'é']) ∧
      after.position = 2 ∧ after.byteOffset = 3 ∧ (Cursor.takeFault after).1 = some .malformedText ∧
      written.Holds "aé" ∧ (Session.readMany (ByteCursor.ofSource written 2) [] 9).1 = "aé" := by
  intro source after written
  obtain ⟨chars, longest, found, ended, -⟩ :=
    reading_decodes_longest source (by decide) rfl ⟨fun _ => rfl, fun _ => rfl⟩ 2
  obtain ⟨chars', -, found', -, whole⟩ :=
    reading_decodes_longest written (by decide) rfl ⟨fun _ => rfl, fun _ => rfl⟩ 2
  have read : (Session.readMany (ByteCursor.ofSource source 2) [] 9).1 = "aé" := by decide +kernel
  have holds : written.Holds "aé" := by decide
  have taken : chars.take 9 = ['a', 'é'] := by
    rw [← String.toList_ofList (l := chars.take 9), ← found 9, read]
    rfl
  have short : chars.length = 2 := by
    have := congrArg List.length taken
    rw [List.length_take] at this
    simp only [List.length_cons, List.length_nil] at this
    omega
  obtain rfl : chars = ['a', 'é'] := by rwa [List.take_of_length_le (by omega)] at taken
  obtain ⟨position, byteOffset, -, fault⟩ := ended 9 after (by decide) rfl
  refine ⟨longest, position, byteOffset, fault.trans (if_neg (by decide)), holds, ?_⟩
  rw [found' 9, whole "aé" holds]
  rfl

/-- A source whose reads deliver nothing looks empty, although a character can be decoded. -/
theorem not_reading_longest_of_chunk_zero :
    let source : Source := { Source.ofBytes #[0x61] with chunk := some 0 }
    let report := Session.readMany (ByteCursor.ofSource source 8192) [] 2
    source.breakdown = none ∧ source.Steady ∧
      Utf8.Longest ['a'] (source.bytes.toList.drop source.position) ∧
      report.1 = "" ∧ report.2.position = 0 ∧ (Cursor.takeFault report.2).1 = none := by
  refine ⟨rfl, ⟨fun _ => rfl, fun _ => rfl⟩, ⟨by decide, fun char found => ?_⟩, by decide +kernel, by decide +kernel,
    by decide +kernel⟩
  have short := found.length_le
  have one : 'a'.utf8Size = 1 := by decide
  have more := char.utf8Size_pos
  simp only [Utf8.encode_append, Utf8.encode_cons, Utf8.encode_nil, List.append_nil, List.length_append,
    String.length_utf8EncodeChar, one] at short
  exact absurd short (by simp [Source.ofBytes]; omega)

end Parsing
