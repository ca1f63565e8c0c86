import Parsing.Parser.Primitive
import Parsing.Proofs.Cursor.Agreement
import Parsing.Proofs.Run.Reports

/-!
# Parsing from a source

A document that is read from a source is parsed like the same document in memory, step by step, if
nothing goes wrong. If something does go wrong, no parser can hide it: what is reported is the first
fault, and anything else is reported only if the whole document has been read without a fault.

Sources that deliver no bytes in a read before they are at their end are excluded, because such a read
is how a source says that it is at its end.
-/

namespace Parsing

open Bytes

variable {R : Type → Type} {α : Type}

namespace ByteCursor

variable {origin : Source} {chars : List Char} {stop : Option Fault} {index : Nat} {c : ByteCursor}

/-- No fault is reported while none has been met, and the cursor is as before. -/
theorem Sound.takeFault_eq (h : c.Sound origin) : Cursor.takeFault c = (none, c) := by
  have same : { c with fault := none } = c := by rw [← h.fault]
  exact Prod.ext h.fault same

/-- While no fault has been met none gets in the way of the outcome. -/
theorem Sound.orFault_eq {β : Type} (h : c.Sound origin)
    (go : ByteCursor → Except Error β × ByteCursor) : orFault c go = go c := by
  rw [orFault, h.takeFault_eq]

/-- A lost cursor stays lost when its fault is taken. -/
theorem Lost.orFault {β : Type} {go : ByteCursor → Except Error β × ByteCursor}
    (h : c.Lost origin stop) (hgo : ∀ d, Lost origin stop d → Lost origin stop (go d).2) :
    Lost origin stop (Parsing.orFault c go).2 := by
  have taken : Lost origin stop (Cursor.takeFault c).2 := ⟨h.1, h.2⟩
  rw [Parsing.orFault]
  split
  · next found => rwa [found] at taken
  · next found =>
    rw [found] at taken
    exact hgo _ taken

/-- A lost cursor stays lost while the outcome is settled. -/
theorem Lost.conclude (h : c.Lost origin stop) (result : Result α) :
    Lost origin stop (Parsing.conclude c result).2 := by
  refine h.orFault fun d lost => ?_
  cases result with
  | success value position =>
    obtain ⟨faults, met⟩ := meets_remaining d
    have scanned : Lost origin stop d.remaining.2 := ⟨met.failed_of_failed lost.1, lost.2⟩
    exact scanned.orFault fun _ lost => lost
  | failure failures =>
    obtain ⟨faults, met⟩ := meets_sourceMap d
    have scanned : Lost origin stop d.sourceMap.2 := ⟨met.failed_of_failed lost.1, lost.2⟩
    exact scanned.orFault fun _ lost => lost

/-- What is reported for a result is the same as for the text, if the rest of the document, or all of
it, can be read without a fault. -/
theorem Tracks.conclude (hchunk : origin.chunk ≠ some 0) (hdoc : origin.Decodes chars stop)
    (h : c.Tracks origin chars index) (result : Result α) :
    Lost origin stop (Parsing.conclude c result).2 ∨ (stop = none ∧
      (Parsing.conclude c result).1 = (Parsing.conclude (TextCursor.standing chars index) result).1) := by
  rw [Parsing.conclude, h.toSound.orFault_eq]
  cases result with
  | success value position =>
    rcases h.remaining hchunk hdoc with lost | ⟨hstop, hremaining, after⟩
    · exact .inl (lost.orFault fun _ lost => lost)
    · refine .inr ⟨hstop, ?_⟩
      have scanned : Cursor.remaining c = (String.ofList (chars.drop index), c.remaining.2) :=
        Prod.ext hremaining rfl
      simp only [scanned, after.toSound.orFault_eq]
      rfl
  | failure failures =>
    rcases h.sourceMap hchunk hdoc with lost | ⟨hstop, hmap, after⟩
    · exact .inl (lost.orFault fun _ lost => lost)
    · refine .inr ⟨hstop, ?_⟩
      have text : SourceMap.ofText (String.ofList chars) = .ofChars chars := by
        rw [SourceMap.ofText, String.toList_ofList]
      have scanned : Cursor.sourceMap c = (SourceMap.ofText (String.ofList chars), c.sourceMap.2) :=
        Prod.ext (hmap.trans text.symm) rfl
      simp only [scanned, after.toSound.orFault_eq]
      rfl

/-- A run on a source is reported like a run on its document, unless a fault has been met. -/
theorem Tracks.parse (hchunk : origin.chunk ≠ some 0) (hdoc : origin.Decodes chars stop)
    (h : c.Tracks origin chars index) (grammar : Grammar R) (budget : Nat) (parser : Parser R α) :
    (origin.Faulty stop ∧ ∀ outcome after,
      parse grammar budget parser c = some (outcome, after) → after.failed = true) ∨
    ((parse grammar budget parser c).map Prod.fst =
        (parse grammar budget parser (TextCursor.standing chars index)).map Prod.fst ∧
      ∀ outcome after, parse grammar budget parser c = some (outcome, after) →
        (∃ why, outcome = .error (.stopped why)) ∨ stop = none) := by
  have alike : (agreement origin chars stop hchunk hdoc).alike c (.standing chars index) :=
    ⟨index, h, rfl⟩
  rcases (agreement origin chars stop hchunk hdoc).run grammar budget parser alike with
    ⟨halt, ran, lost⟩ | ⟨state, ran, lost⟩ | ⟨ran, ran'⟩ | ⟨halt, other, ran, ran', halts⟩
  · refine .inl ⟨lost.2, fun outcome after reported => ?_⟩
    cases halt with
    | finished d result =>
      have concluded : Lost origin stop (Parsing.conclude d result).2 := Lost.conclude lost result
      rw [parse_of_finished ran, Option.some.injEq] at reported
      rw [reported] at concluded
      exact concluded.1
    | stopped why d =>
      rw [parse_of_stopped ran, Option.some.injEq, Prod.mk.injEq] at reported
      rw [← reported.2]
      exact lost.1
  · refine .inl ⟨lost.2, fun outcome after reported => ?_⟩
    rw [parse_of_none ran] at reported
    cases reported
  · rw [parse_of_none ran, parse_of_none ran']
    exact .inr ⟨rfl, fun outcome after reported => nomatch reported⟩
  · cases halts with
    | stopped why alike =>
      rw [parse_of_stopped ran, parse_of_stopped ran']
      refine .inr ⟨rfl, fun outcome after reported => ?_⟩
      rw [Option.some.injEq, Prod.mk.injEq] at reported
      exact .inl ⟨why, reported.1.symm⟩
    | finished result alike =>
      obtain ⟨last, tracks, rfl⟩ := alike
      rw [parse_of_finished ran, parse_of_finished ran']
      rcases tracks.conclude hchunk hdoc result with lost | ⟨hstop, same⟩
      · refine .inl ⟨lost.2, fun outcome after reported => ?_⟩
        rw [Option.some.injEq] at reported
        rw [reported] at lost
        exact lost.1
      · exact .inr ⟨congrArg some same, fun _ _ _ => .inr hstop⟩

/-- What is true of the record of faults once a fault has been looked for: if one is reported it is the
first that was met, and otherwise none was met before the rest was carried out. -/
theorem KeepsFirst.orFault {β : Type} (h : c.KeepsFirst)
    (go : ByteCursor → Except Error β × ByteCursor) :
    (∃ fault, (Parsing.orFault c go).1 = .error (.fault fault) ∧
      (Parsing.orFault c go).2.faults.head? = some fault) ∨
    (c.faults = [] ∧ Parsing.orFault c go = go c) := by
  have first := h.head?_faults
  cases hfault : c.fault with
  | some fault =>
    have taken : Cursor.takeFault c = (some fault, { c with fault := none }) := Prod.ext hfault rfl
    refine .inl ⟨fault, ?_⟩
    rw [Parsing.orFault, taken]
    exact ⟨rfl, first.trans hfault⟩
  | none =>
    have same : { c with fault := none } = c := by rw [← hfault]
    have taken : Cursor.takeFault c = (none, c) := Prod.ext hfault same
    rw [hfault, List.head?_eq_none_iff] at first
    exact .inr ⟨first, by rw [Parsing.orFault, taken]⟩

/-- A finished run is reported by the first fault met, during the run or the scan that follows it, or
by its result if there was none. -/
theorem KeepsFirst.conclude (h : c.KeepsFirst) (result : Result α) :
    (∃ fault, (Parsing.conclude c result).1 = .error (.fault fault) ∧
      (Parsing.conclude c result).2.faults.head? = some fault) ∨
    ((Parsing.conclude c result).2.faults = [] ∧ (Parsing.conclude c result).2.failed = false ∧
      (∀ fault, (Parsing.conclude c result).1 ≠ .error (.fault fault)) ∧
      ∀ why, (Parsing.conclude c result).1 ≠ .error (.stopped why)) := by
  have healthy {d : ByteCursor} (kept : d.KeepsFirst) (none : d.faults = []) : d.failed = false := by
    rw [kept.failed, List.reverse_eq_nil_iff.1 none]
    rfl
  rw [Parsing.conclude]
  rcases h.orFault _ with reported | ⟨-, hgo⟩
  · exact .inl reported
  · rw [hgo]
    cases result with
    | success value position =>
      obtain ⟨faults, met⟩ := meets_remaining c
      have kept : c.remaining.2.KeepsFirst := met.keepsFirst h
      rcases kept.orFault fun d => ((.ok ⟨value, c.remaining.1⟩ : Except Error (Parsed α)), d) with
        reported | ⟨hnone, hgo⟩
      · exact .inl reported
      · refine .inr ?_
        simp only [show Cursor.remaining c = (c.remaining.1, c.remaining.2) from rfl, hgo]
        refine ⟨hnone, healthy kept hnone, fun fault told => ?_, fun why told => ?_⟩ <;> cases told
    | failure failures =>
      obtain ⟨faults, met⟩ := meets_sourceMap c
      have kept : c.sourceMap.2.KeepsFirst := met.keepsFirst h
      rcases kept.orFault fun d =>
          ((.error (.mismatch (failures.locate c.sourceMap.1)) : Except Error (Parsed α)), d) with
        reported | ⟨hnone, hgo⟩
      · exact .inl reported
      · refine .inr ?_
        simp only [show Cursor.sourceMap c = (c.sourceMap.1, c.sourceMap.2) from rfl, hgo]
        refine ⟨hnone, healthy kept hnone, fun fault told => ?_, fun why told => ?_⟩ <;> cases told

end ByteCursor

namespace Bytes.Source

/-- From where it stands the source holds the UTF-8 form of a text, and nothing else. -/
def Holds (s : Source) (text : String) : Prop :=
  s.bytes.toList.drop s.position = text.toUTF8.data.toList

instance (s : Source) (text : String) : Decidable (s.Holds text) :=
  inferInstanceAs (Decidable (_ = _))

variable {s : Source}

/-- If no fault stands behind the readable bytes then these are all there are. -/
theorem readable_of_behind_none (h : s.behind = none) : s.readable = s.bytes.toList.drop s.position := by
  rw [readable, available]
  unfold behind at h
  split at h
  · rfl
  · split at h
    · cases h
    · rw [List.take_of_length_le]
      rw [Array.length_toList]
      omega

/-- A source that never breaks down has the text it holds as its document. -/
theorem Holds.decodes {text : String} (h : s.Holds text) (hbreakdown : s.breakdown = none) :
    s.Decodes text.toList none := by
  have hbehind : s.behind = none := by rw [behind, hbreakdown]
  refine ⟨[], ?_, congrArg Except.error hbehind⟩
  rw [List.append_nil, readable_of_behind_none hbehind, h, Utf8.toList_toUTF8]

/-- A document that ends without a fault is the text that the source holds. -/
theorem Decodes.holds {chars : List Char} (h : s.Decodes chars none) : s.Holds (String.ofList chars) := by
  obtain ⟨hbehind, hbytes⟩ := h.readable_eq
  rw [Holds, ← readable_of_behind_none hbehind, hbytes, Utf8.toList_toUTF8, String.toList_ofList]

end Bytes.Source

/-- Reading a text from a source makes no difference: whatever bytes stand before it, whatever the room
of the buffer, however the source cuts the text into pieces and whenever it interrupts a read, every
parser is reported like on the text itself, after as many steps. -/
theorem parse_ofSource_eq_ofText (source : Source) (text : String) (holds : source.Holds text)
    (hchunk : source.chunk ≠ some 0) (hbreakdown : source.breakdown = none) (steady : source.Steady)
    (grammar : Grammar R) (budget : Nat) (parser : Parser R α) (capacity : Nat) :
    (parse grammar budget parser (ByteCursor.ofSource source capacity)).map Prod.fst =
      (parse grammar budget parser (TextCursor.ofText text)).map Prod.fst := by
  have tracks := ByteCursor.tracks_ofSource source capacity text.toList
  rw [TextCursor.ofText_eq_standing]
  rcases tracks.parse hchunk (holds.decodes hbreakdown) grammar budget parser with ⟨faulty, -⟩ | ⟨same, -⟩
  · rcases faulty with hstop | unsteady
    · exact absurd rfl hstop
    · exact absurd steady unsteady
  · exact same

/-- What was read before the text, a buffer of three bytes, reads of at most two of them and
interruptions do not matter. -/
theorem parse_ofSource_eq_ofText_pieces :
    let source : Source := { Source.ofBytes #[0x3f, 0x61, 0xc3, 0xa9] with
      position := 1, chunk := some 2, interruptions := fun reads => reads % 2, pending := 1 }
    source.Holds "aé" ∧ source.chunk ≠ some 0 ∧ source.breakdown = none ∧ source.Steady ∧
      (parse .empty 9 (.literal "aé") (ByteCursor.ofSource source 3)).map Prod.fst =
        (parse .empty 9 (.literal "aé") (TextCursor.ofText "aé")).map Prod.fst :=
  ⟨by decide, by decide, rfl, ⟨fun _ => rfl, fun _ => rfl⟩,
    parse_ofSource_eq_ofText _ "aé" (by decide) (by decide) rfl ⟨fun _ => rfl, fun _ => rfl⟩ .empty 9
      (.literal "aé") 3⟩

/-- To read no bytes is to be at the end: a source whose reads deliver nothing looks empty, although
no fault is met. -/
theorem parse_ofSource_ne_ofText_of_chunk_zero :
    let source : Source := { Source.ofBytes #[0x61] with chunk := some 0 }
    source.Holds "a" ∧ source.breakdown = none ∧ source.Steady ∧
      (parse .empty 9 (.literal "a") (ByteCursor.ofSource source 8192)).map Prod.fst ≠
        (parse .empty 9 (.literal "a") (TextCursor.ofText "a")).map Prod.fst := by
  refine ⟨by decide, rfl, ⟨fun _ => rfl, fun _ => rfl⟩, fun same => ?_⟩
  exact absurd (congrArg (Option.map Except.isOk) same) (by decide +kernel)

/-- What is reported for a finished run is the first fault that was met during the run or the scan that
follows it; if there was none, the source holds a text, and it is what is reported for that text. -/
theorem parse_ofSource_of_finished {source : Source} (hchunk : source.chunk ≠ some 0)
    {grammar : Grammar R} {budget : Nat} {parser : Parser R α} {capacity : Nat} {c after : ByteCursor}
    {result : Result α} {outcome : Except Error (Parsed α)}
    (ran : parser.run grammar budget (ByteCursor.ofSource source capacity) = some (.finished c result))
    (reported : parse grammar budget parser (ByteCursor.ofSource source capacity) = some (outcome, after)) :
    (∃ fault, outcome = .error (.fault fault) ∧ after.faults.head? = some fault) ∨
    (after.faults = [] ∧ (∀ fault, outcome ≠ .error (.fault fault)) ∧ (∀ why, outcome ≠ .error (.stopped why)) ∧
      ∃ text, source.Holds text ∧
        (parse grammar budget parser (TextCursor.ofText text)).map Prod.fst = some outcome) := by
  have fresh := ByteCursor.keepsFirst_ofSource source capacity
  have kept : c.KeepsFirst := (ByteCursor.keeps_of_meets fun met h => met.keepsFirst h).run ran fresh
  have concluded := kept.conclude result
  have settled := reported
  rw [parse_of_finished ran, Option.some.injEq] at settled
  rw [settled] at concluded
  rcases concluded with found | ⟨hnone, healthy, hfault, hstopped⟩
  · exact .inl found
  · obtain ⟨chars, stop, hdoc⟩ := source.exists_decodes
    refine .inr ⟨hnone, hfault, hstopped, ?_⟩
    rcases (ByteCursor.tracks_ofSource source capacity chars).parse hchunk hdoc grammar budget parser with
      ⟨-, failed⟩ | ⟨same, stopped⟩
    · rw [failed outcome after reported] at healthy
      cases healthy
    · rcases stopped outcome after reported with ⟨why, h⟩ | rfl
      · exact absurd h (hstopped why)
      · refine ⟨String.ofList chars, hdoc.holds, ?_⟩
        rw [TextCursor.ofText_eq_standing, String.toList_ofList, ← same, reported]
        rfl

/-- A source in which anything may go wrong gives no wrong answer. A run is reported as stopped
exactly if it was; otherwise, if a fault was met during the run or the scan that follows it, the first
one is reported; and otherwise the source holds a text, and what is reported is what would be for that
text. So if the source does not hold a text, neither a value nor a mismatch is ever reported. -/
theorem parse_ofSource_faithful (source : Source) (hchunk : source.chunk ≠ some 0)
    (grammar : Grammar R) (budget : Nat) (parser : Parser R α) (capacity : Nat)
    (outcome : Except Error (Parsed α)) (after : ByteCursor)
    (reported : parse grammar budget parser (ByteCursor.ofSource source capacity) =
      some (outcome, after)) :
    (∀ why, outcome = .error (.stopped why) ↔
      ∃ c, parser.run grammar budget (ByteCursor.ofSource source capacity) = some (.stopped why c)) ∧
    (∀ fault, outcome = .error (.fault fault) ↔
      (∀ why, outcome ≠ .error (.stopped why)) ∧ after.faults.head? = some fault) ∧
    ((∀ why, outcome ≠ .error (.stopped why)) → after.faults = [] → ∃ text, source.Holds text ∧
      (parse grammar budget parser (TextCursor.ofText text)).map Prod.fst = some outcome) ∧
    ((∀ text, ¬source.Holds text) →
      (∃ why, outcome = .error (.stopped why)) ∨ ∃ fault, outcome = .error (.fault fault)) := by
  cases ran : parser.run grammar budget (ByteCursor.ofSource source capacity) with
  | none =>
    rw [parse_of_none ran] at reported
    cases reported
  | some halt =>
    cases halt with
    | stopped why c =>
      rw [parse_of_stopped ran, Option.some.injEq, Prod.mk.injEq] at reported
      obtain ⟨rfl, rfl⟩ := reported
      refine ⟨fun reason => ⟨?_, ?_⟩, fun fault => ⟨nofun, fun h => absurd rfl (h.1 why)⟩,
        fun h => absurd rfl (h why), fun _ => .inl ⟨why, rfl⟩⟩
      · rintro ⟨⟩
        exact ⟨c, rfl⟩
      · rintro ⟨d, ⟨⟩⟩
        rfl
    | finished c result =>
      have notStopped (why : Stop) : ¬∃ d, some (Parser.Halt.finished c result) = some (.stopped why d) := by
        rintro ⟨d, same⟩
        cases same
      rcases parse_ofSource_of_finished hchunk ran reported with
        ⟨fault, rfl, hfirst⟩ | ⟨hnone, hfault, hstopped, text, holds, same⟩
      · refine ⟨fun why => ⟨nofun, fun h => absurd h (notStopped why)⟩, fun other => ⟨?_, fun h => ?_⟩, fun _ hnone => ?_,
          fun _ => .inr ⟨fault, rfl⟩⟩
        · rintro ⟨⟩
          exact ⟨nofun, hfirst⟩
        · obtain rfl : fault = other := Option.some.inj (hfirst.symm.trans h.2)
          rfl
        · rw [hnone] at hfirst
          cases hfirst
      · refine ⟨fun why => ⟨fun h => absurd h (hstopped why), fun h => absurd h (notStopped why)⟩,
          fun fault => ⟨fun h => absurd h (hfault fault), fun h => ?_⟩, fun _ _ => ⟨text, holds, same⟩,
          fun h => absurd holds (h text)⟩
        rw [hnone] at h
        cases h.2

/-- A byte behind the part that is matched is found by the scan that follows the run. -/
theorem parse_ofSource_faithful_malformed :
    let source : Source := { Source.ofBytes #[0x61, 0xff] with chunk := some 1 }
    source.chunk ≠ some 0 ∧ ∃ after,
      parse .empty 9 (.literal "a") (ByteCursor.ofSource source 8192) =
        some (.error (.fault .malformedText), after) ∧
      after.faults.head? = some .malformedText := by
  refine ⟨by decide, ?_⟩
  have found : (parse .empty 9 (.literal "a") (ByteCursor.ofSource
      { Source.ofBytes #[0x61, 0xff] with chunk := some 1 } 8192)).map Prod.fst =
        some (.error (.fault .malformedText)) := by decide +kernel
  obtain ⟨⟨outcome, after⟩, reported, rfl⟩ := Option.map_eq_some_iff.1 found
  have faithful := parse_ofSource_faithful _ (by decide) .empty 9 (.literal "a") 8192 _ after reported
  exact ⟨after, reported, ((faithful.2.1 _).1 rfl).2⟩

/-- A read that fails once is reported, although the next one would deliver what is left. -/
example :
    let source : Source := { Source.ofBytes #[0x61, 0x62] with
      chunk := some 1, readFault := fun reads => if reads = 1 then some ⟨.other, "not now"⟩ else none }
    (parse .empty 9 (.literal "ab") (ByteCursor.ofSource source 8192)).map Prod.fst =
      some (.error (.fault ⟨.other, "not now"⟩)) := by decide +kernel

/-- A source whose reads deliver nothing hides that its only byte is malformed, and a value is
reported. -/
theorem parse_ofSource_ok_of_chunk_zero :
    let source : Source := { Source.ofBytes #[0xff] with chunk := some 0 }
    (∀ text, ¬source.Holds text) ∧
      (parse .empty 9 (.unit ()) (ByteCursor.ofSource source 8192)).map Prod.fst = some (.ok ⟨(), ""⟩) := by
  refine ⟨fun text holds => ?_, by decide +kernel⟩
  have hbytes : [0xff] = Utf8.encode text.toList := by rw [← Utf8.toList_toUTF8, ← holds]; rfl
  cases hchars : text.toList with
  | nil => simp [hchars, Utf8.encode_nil] at hbytes
  | cons char rest =>
    obtain ⟨lead, more, hlead, hcount⟩ := Utf8.following?_utf8EncodeChar char
    rw [hchars, Utf8.encode_cons, hlead] at hbytes
    obtain rfl : 0xff = lead := (List.cons.inj hbytes).1
    cases hcount

end Parsing
