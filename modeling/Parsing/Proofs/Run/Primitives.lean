import Parsing.Proofs.Machine.Halting
import Parsing.Proofs.Parser.Matching
import Parsing.Proofs.Run.Backtracking
import Parsing.Proofs.Run.Indexed

/-!
# Primitive parsers are exact

A primitive parser looks at what is left of the document and at nothing else. It matches exactly if what is left
begins as it expects. Then it consumes just the text that it has matched. Otherwise it reports one failure, at
the place where it began, and there is nothing to tell that it ever ran, however far it had come. Only a block of
characters that there is no room for does neither: it stops the run.

What is expected is said of the characters that are left alone. That this is what happens is shown for cursors
that hand out a list, and carried over to all that answer like them. So it makes no difference if the characters
come from a text in memory, or from bytes through a small buffer.
-/

namespace Parsing

open Parsing.Parser Bytes

variable {R : Type → Type} {S T : Type} [Cursor S] [Cursor T] {α : Type} {grammar : Grammar R}

/-! ## Expectations -/

/-- What a primitive parser is expected to do where these characters are left. -/
structure Expectation (α : Type) where
  /-- It matches at the start of these characters. -/
  accepts : List Char → Prop
  /-- The value stands for the text that was matched. -/
  reads : α → List Char → Prop
  /-- The message says why it does not match. -/
  explains : List Char → String → Prop

/-- The character found where one list first differs from another one that was expected, or that the list ends
there. -/
inductive FirstDifference : List Char → List Char → Option Char → Prop
  | here {other : Char} {more left : List Char} {found : Option Char} (hfound : left.head? = found)
      (differs : found ≠ some other) : FirstDifference (other :: more) left found
  | behind {char : Char} {more left : List Char} {found : Option Char} (h : FirstDifference more left found) :
      FirstDifference (char :: more) (char :: left) found

namespace FirstDifference

variable {expected left : List Char} {found other : Option Char}

/-- Nothing that differs begins as it should. -/
theorem not_prefix (h : FirstDifference expected left found) : ¬expected <+: left := by
  induction h with
  | here hfound differs =>
    rintro ⟨rest, rfl⟩
    exact differs hfound.symm
  | behind _ ih => exact fun starts => ih (List.cons_prefix_cons.1 starts).2

/-- There is one first difference. -/
theorem unique (h : FirstDifference expected left found) (h' : FirstDifference expected left other) :
    found = other := by
  induction h with
  | here hfound differs =>
    cases h' with
    | here hother _ => exact hfound.symm.trans hother
    | behind _ => exact absurd hfound.symm differs
  | behind _ ih =>
    cases h' with
    | here hother differs => exact absurd hother.symm differs
    | behind h' => exact ih h'

end FirstDifference

namespace Expectation

/-- A given text. -/
def literal (expected : String) : Expectation String where
  accepts left := expected.toList <+: left
  reads value token := value = expected ∧ token = expected.toList
  explains left message := ∃ found, FirstDifference expected.toList left found ∧
    message = literalMessage expected found

/-- This many characters, whatever they are. -/
def characters (count : Nat) : Expectation String where
  accepts left := count ≤ left.length
  reads value token := value = String.ofList token ∧ token.length = count
  explains _ message := message = "Expected character but found end of string"

/-- One character that is allowed. -/
def character (allowed : Char → Prop) (describe : Option Char → String) : Expectation Char where
  accepts left := ∃ char, left.head? = some char ∧ allowed char
  reads char token := token = [char] ∧ allowed char
  explains left message := message = describe left.head?

/-- One of the characters of a text. -/
def oneOf (chars : String) : Expectation Char :=
  character (· ∈ chars.toList) fun found => s!"Expected one of `{chars}` but found {foundText found}"

/-- A character that is not in a text. -/
def noneOf (chars : String) : Expectation Char :=
  character (· ∉ chars.toList) fun found => s!"Expected none of `{chars}` but found {foundText found}"

/-- Nothing more. -/
def endOfFile : Expectation Unit where
  accepts left := left = []
  reads _ token := token = []
  explains left message := ∃ char, left.head? = some char ∧
    message = s!"Expected end-of-file but found `{char}`"

end Expectation

/-- The characters that are left to be read. -/
def Cursor.left (c : S) : List Char := (Cursor.remaining c).1.toList

/-- A parser does exactly what is expected of it. It comes to an end, and succeeds exactly if what is left of
the document is accepted. A success consumes just the text that the value stands for. A failure is reported
alone and at the place where the parser began, and nothing tells the cursor from the one before. -/
structure Parser.Meets [Inspectable S] (grammar : Grammar R) (points : List (Cursor.Point S)) (c : S)
    (parser : Parser R α) (expected : Expectation α) : Prop where
  ends : ∃ d result, parser.Yields grammar c (.finished d result)
  success_iff : (∃ d value position, parser.Yields grammar c (.finished d (.success value position))) ↔
    expected.accepts (Cursor.left c)
  success : ∀ d value position, parser.Yields grammar c (.finished d (.success value position)) →
    ∃ token, expected.reads value token ∧ Cursor.left c = token ++ Cursor.left d ∧
      Cursor.position d = Cursor.position c + token.length ∧ position = Cursor.position d
  failure : ∀ d failures, parser.Yields grammar c (.finished d (.failure failures)) →
    (∃ message, failures = .single ⟨message, Cursor.position c⟩ ∧
      expected.explains (Cursor.left c) message) ∧
    Cursor.Indistinguishable points d c

/-- All primitive parsers do exactly what is expected of them. Blocks do so as long as there is room for them,
and otherwise stop the run. -/
structure Cursor.PrimitivesMeet [Inspectable S] (grammar : Grammar R) (points : List (Cursor.Point S)) (c : S) :
    Prop where
  literal : ∀ expected, (Parser.literal expected).Meets grammar points c (.literal expected)
  characters : ∀ count ≤ maxRoom, (Parser.characters count).Meets grammar points c (.characters count)
  overflows : ∀ count, maxRoom < count → (Parser.characters count).Overflows grammar c
  oneOf : ∀ chars, (Parser.oneOf chars).Meets grammar points c (.oneOf chars)
  noneOf : ∀ chars, (Parser.noneOf chars).Meets grammar points c (.noneOf chars)
  endOfFile : Parser.endOfFile.Meets grammar points c .endOfFile

/-! ## Cursors that hand out a list -/

/-- Cursors that hand out the characters of a list, one after the other and nothing behind them, and that come
back as they were. -/
structure Cursor.HandsOut (T : Type) [Cursor T] (ahead : T → List Char → Prop) : Prop where
  peek : ∀ {d left}, ahead d left → Cursor.peek d = (left.head?, d)
  read_end : ∀ {d}, ahead d [] → Cursor.read d = (none, d)
  read_char : ∀ {d char left}, ahead d (char :: left) → ∃ e, Cursor.read d = (some char, e) ∧
    ahead e left ∧ Cursor.position e = Cursor.position d + 1
  remaining : ∀ {d left}, ahead d left → (Cursor.remaining d).1 = String.ofList left
  free : Cursor.MarksFreely T
  rewinds : Cursor.Rewinds T

/-- How a run may end that is as expected, on a cursor that hands out a list: behind the text that was matched,
or where it began. -/
inductive Expectation.Reacts (expected : Expectation α) (ahead : T → List Char → Prop) (d : T)
    (left : List Char) : Halt T α → Prop
  | success {value : α} {token rest : List Char} {e : T} (accepted : expected.accepts left)
      (reads : expected.reads value token) (split : left = token ++ rest) (behind : ahead e rest)
      (position : Cursor.position e = Cursor.position d + token.length) :
      Reacts expected ahead d left (.finished e (.success value (Cursor.position e)))
  | failure {message : String} (rejected : ¬expected.accepts left) (explained : expected.explains left message) :
      Reacts expected ahead d left (.finished d (.fail message (Cursor.position d)))

namespace Cursor.HandsOut

variable {ahead : T → List Char → Prop} {d e : T} {left : List Char} {program : Scan α} {result : Result α}

/-- A scan that reports a result is a run. -/
theorem yields_scan (ran : program.run d = (.ok result, e)) :
    (Parser.scan program).Yields grammar d (.finished e result) := by
  rw [yields_scan_iff, ran]

/-- An attempt that matches stays behind what it has matched. -/
theorem attempt_success (handsOut : Cursor.HandsOut T ahead) {value : α} {position : Nat}
    (ran : program.run d = (.ok (.success value position), e)) :
    (attempt (Parser.scan program)).Yields grammar d (.finished e (.success value position)) :=
  handsOut.free.yields_attempt_iff.2 ⟨_, yields_scan ran, rfl⟩

/-- An attempt that fails is where it began. -/
theorem attempt_failure (handsOut : Cursor.HandsOut T ahead) {failures : Failures}
    (ran : program.run d = (.ok (.failure failures), e)) :
    (attempt (Parser.scan program)).Yields grammar d (.finished d (.failure failures)) := by
  have inner : (Parser.scan program).Yields grammar d (.finished e (.failure failures)) := yields_scan ran
  refine handsOut.free.yields_attempt_iff.2 ⟨_, inner, ?_⟩
  rw [Halt.move, handsOut.rewinds inner]

/-- An exact match goes as far as there is no difference. -/
theorem run_matchChars (handsOut : Cursor.HandsOut T ahead) (expected : String) (start : Nat) (want : List Char)
    (h : ahead d left) :
    (∃ rest e, left = want ++ rest ∧ ahead e rest ∧ Cursor.position e = Cursor.position d + want.length ∧
      (matchChars expected start want).run d = (.ok (.success expected (Cursor.position e)), e)) ∨
    ∃ found e, FirstDifference want left found ∧
      (matchChars expected start want).run d = (.ok (.fail (literalMessage expected found) start), e) := by
  induction want generalizing d left with
  | nil => exact .inl ⟨left, d, rfl, h, rfl, rfl⟩
  | cons char want ih =>
    have looked := handsOut.peek h
    by_cases same : left.head? = some char
    · obtain ⟨rest, rfl⟩ := List.head?_eq_some_iff.1 same
      obtain ⟨e, consumed, behind, position⟩ := handsOut.read_char h
      have step : (matchChars expected start (char :: want)).run d = (matchChars expected start want).run e := by
        simp only [matchChars, Scan.run, looked, same, if_true, consumed]
      rcases ih behind with ⟨rest', f, rfl, last, position', ran⟩ | ⟨found, f, differs, ran⟩
      · refine .inl ⟨rest', f, rfl, last, ?_, step.trans ran⟩
        rw [position', position, List.length_cons]
        omega
      · exact .inr ⟨found, f, .behind differs, step.trans ran⟩
    · refine .inr ⟨left.head?, d, .here rfl same, ?_⟩
      simp only [matchChars, Scan.run, looked, if_neg same]

/-- A block of characters is read up to its end, or up to the end of the document. -/
theorem run_takeChars (handsOut : Cursor.HandsOut T ahead) (start count : Nat) (newestFirst : List Char)
    (h : ahead d left) :
    (∃ token rest e, token.length = count ∧ left = token ++ rest ∧ ahead e rest ∧
      Cursor.position e = Cursor.position d + token.length ∧
      (takeChars start count newestFirst).run d =
        (.ok (.success (String.ofList (newestFirst.reverse ++ token)) (Cursor.position e)), e)) ∨
    left.length < count ∧ ∃ e, (takeChars start count newestFirst).run d =
      (.ok (.fail "Expected character but found end of string" start), e) := by
  induction count generalizing d left newestFirst with
  | zero => exact .inl ⟨[], left, d, rfl, rfl, h, rfl, by rw [List.append_nil]; rfl⟩
  | succ count ih =>
    cases left with
    | nil =>
      refine .inr ⟨Nat.succ_pos _, d, ?_⟩
      simp only [takeChars, Scan.run, handsOut.read_end h]
    | cons char left =>
      obtain ⟨e, consumed, behind, position⟩ := handsOut.read_char h
      have step : (takeChars start (count + 1) newestFirst).run d =
          (takeChars start count (char :: newestFirst)).run e := by
        simp only [takeChars, Scan.run, consumed]
      rcases ih (char :: newestFirst) behind with ⟨token, rest, f, rfl, rfl, last, position', ran⟩ | ⟨short, f, ran⟩
      · refine .inl ⟨char :: token, rest, f, rfl, rfl, last, ?_, ?_⟩
        · rw [position', position, List.length_cons]
          omega
        · rw [step, ran, List.reverse_cons, List.append_assoc, List.singleton_append]
      · exact .inr ⟨Nat.succ_lt_succ short, f, step.trans ran⟩

variable (grammar)

/-- A literal matches its text, and explains where another text differs. -/
theorem literal (handsOut : Cursor.HandsOut T ahead) (expected : String) (h : ahead d left) :
    ∃ halt, (Parser.literal expected).Yields grammar d halt ∧
      (Expectation.literal expected).Reacts ahead d left halt := by
  rcases handsOut.run_matchChars expected (Cursor.position d) expected.toList h with
    ⟨rest, e, split, behind, position, ran⟩ | ⟨found, e, differs, ran⟩
  · exact ⟨_, handsOut.attempt_success ran, .success ⟨rest, split.symm⟩ ⟨rfl, rfl⟩ split behind position⟩
  · exact ⟨_, handsOut.attempt_failure ran, .failure differs.not_prefix ⟨found, differs, rfl⟩⟩

/-- Any characters match, if there are enough. -/
theorem characters (handsOut : Cursor.HandsOut T ahead) {count : Nat} (fits : count ≤ maxRoom)
    (h : ahead d left) : ∃ halt, (Parser.characters count).Yields grammar d halt ∧
      (Expectation.characters count).Reacts ahead d left halt := by
  rw [Parser.characters, withRoom_of_le fits]
  rcases handsOut.run_takeChars (Cursor.position d) count [] h with
    ⟨token, rest, e, length, split, behind, position, ran⟩ | ⟨short, e, ran⟩
  · have enough : count ≤ left.length := by
      rw [split, List.length_append]
      omega
    exact ⟨_, handsOut.attempt_success ran, .success enough ⟨rfl, length⟩ split behind position⟩
  · exact ⟨_, handsOut.attempt_failure ran, .failure (Nat.not_le.2 short) rfl⟩

/-- A character matches if it is allowed. -/
theorem satisfy (handsOut : Cursor.HandsOut T ahead) {accepts : Char → Bool} {allowed : Char → Prop}
    (describe : Option Char → String) (decides : ∀ char, accepts char = true ↔ allowed char) (h : ahead d left) :
    ∃ halt, (Parser.satisfy accepts describe).Yields grammar d halt ∧
      (Expectation.character allowed describe).Reacts ahead d left halt := by
  have looked := handsOut.peek h
  cases left with
  | nil =>
    refine ⟨_, yields_scan (e := d) ?_, .failure ?_ rfl⟩
    · simp only [Scan.run, looked, List.head?_nil]
    · rintro ⟨char, ⟨⟩, -⟩
  | cons char left =>
    by_cases accepted : accepts char = true
    · obtain ⟨e, consumed, behind, position⟩ := handsOut.read_char h
      refine ⟨_, yields_scan (e := e) ?_, .success ⟨char, rfl, (decides char).1 accepted⟩
        ⟨rfl, (decides char).1 accepted⟩ rfl behind position⟩
      simp only [Scan.run, looked, List.head?_cons, if_pos accepted, Scan.advance, consumed, Scan.succeed]
    · refine ⟨_, yields_scan (e := d) ?_, .failure ?_ rfl⟩
      · simp only [Scan.run, looked, List.head?_cons, if_neg accepted]
      · rintro ⟨other, ⟨⟩, other_allowed⟩
        exact accepted ((decides char).2 other_allowed)

/-- The end of the document matches where nothing is left. -/
theorem endOfFile (handsOut : Cursor.HandsOut T ahead) (h : ahead d left) :
    ∃ halt, Parser.endOfFile.Yields grammar d halt ∧ Expectation.endOfFile.Reacts ahead d left halt := by
  have looked := handsOut.peek h
  cases left with
  | nil =>
    refine ⟨.finished d (.success () (Cursor.position d)), yields_scan ?_, .success rfl rfl rfl h rfl⟩
    simp only [Scan.run, looked, List.head?_nil]
  | cons char left =>
    refine ⟨_, yields_scan (e := d) ?_, .failure (List.cons_ne_nil _ _) ⟨char, rfl, rfl⟩⟩
    simp only [Scan.run, looked, List.head?_cons]

end Cursor.HandsOut

/-! ## Carrying it over -/

namespace Cursor.Mirror

variable [Inspectable S] [Inspectable T] {m : Cursor.Mirror S T} {c : S} {e : T}
  {ahead : T → List Char → Prop} {left : List Char} {points : List (Cursor.Point S)}

/-- What is left of a cursor that answers like one that hands out a list. -/
theorem left_eq (handsOut : Cursor.HandsOut T ahead) (h : m.alike c e) (here : ahead e left) :
    Cursor.left c = left := by
  rw [Cursor.left, (m.remaining_alike h).1, handsOut.remaining here, String.toList_ofList]

/-- A parser does what is expected of it if it does so on a cursor that answers alike and hands out a list. -/
theorem meets (handsOut : Cursor.HandsOut T ahead) (h : m.alike c e) (here : ahead e left)
    (same : ∀ {c d}, m.kernel.alike c d → Cursor.Indistinguishable points c d) {parser : Parser R α}
    {expected : Expectation α} {halt : Halt T α} (ran : parser.Yields grammar e halt)
    (reacts : expected.Reacts ahead e left halt) : parser.Meets grammar points c expected := by
  obtain ⟨other, ran', alike⟩ := m.exists_yields h ran
  rw [← m.left_eq handsOut h here] at reacts
  cases reacts with
  | success accepted reads split behind position =>
    cases alike with
    | finished _ alike =>
      refine ⟨⟨_, _, ran'⟩, ⟨fun _ => accepted, fun _ => ⟨_, _, _, ran'⟩⟩, ?_, ?_⟩
      · intro d value place ran''
        cases ran'.unique ran''
        refine ⟨_, reads, split.trans ?_, ?_, (m.position_eq alike).symm⟩
        · rw [m.left_eq handsOut alike behind]
        · rw [m.position_eq alike, position, m.position_eq h]
      · intro d failures ran''
        cases ran'.unique ran''
  | failure rejected explained =>
    cases alike with
    | finished _ alike =>
      refine ⟨⟨_, _, ran'⟩, ⟨?_, fun accepted => absurd accepted rejected⟩, ?_, ?_⟩
      · rintro ⟨d, value, place, ran''⟩
        cases ran'.unique ran''
      · intro d value place ran''
        cases ran'.unique ran''
      · intro d failures ran''
        cases ran'.unique ran''
        exact ⟨⟨_, by rw [m.position_eq h], explained⟩, same ⟨e, alike, h⟩⟩

/-- All primitive parsers do what is expected of them, if they do so on a cursor that answers alike. -/
theorem primitivesMeet (handsOut : Cursor.HandsOut T ahead)
    (exact : ∀ {p q : Cursor.Point S} {r : Cursor.Point T}, m.points p r → m.points q r → p = q)
    (known : ∀ point ∈ points, ∃ r, m.points point r) (h : m.alike c e) (here : ahead e left)
    (grammar : Grammar R) : Cursor.PrimitivesMeet grammar points c := by
  have meets {α : Type} {parser : Parser R α} {expected : Expectation α}
      (reacts : ∃ halt, parser.Yields grammar e halt ∧ expected.Reacts ahead e left halt) :
      parser.Meets grammar points c expected := by
    obtain ⟨halt, ran, reacts⟩ := reacts
    exact m.meets handsOut h here (fun alike => indistinguishable alike exact known) ran reacts
  exact
    { literal := fun expected => meets (handsOut.literal grammar expected here)
      characters := fun count fits => meets (handsOut.characters grammar fits here)
      overflows := fun count lacks => characters_overflows lacks c
      oneOf := fun chars => meets (handsOut.satisfy grammar _ (by simp) here)
      noneOf := fun chars => meets (handsOut.satisfy grammar _ (by simp) here)
      endOfFile := meets (handsOut.endOfFile grammar here) }

end Cursor.Mirror

/-- A text cursor hands out its text. -/
theorem TextCursor.handsOut : Cursor.HandsOut TextCursor fun d left => d.rest = left where
  peek := by
    rintro d _ rfl
    rfl
  read_end := by
    intro d h
    change d.read = _
    simp only [TextCursor.read, h]
  read_char := by
    intro d char left h
    refine ⟨d.past [char], TextCursor.read_of_rest h, ?_, rfl⟩
    exact TextCursor.rest_past h
  remaining := by
    rintro d _ rfl
    rfl
  free := ⟨fun _ => rfl, fun _ _ => rfl⟩
  rewinds := TextCursor.rewinds

namespace IndexCursor

variable {chars : List Char}

/-- An index into a document behind which no fault stands hands out the document from there. -/
theorem handsOut (chars : List Char) : Cursor.HandsOut (IndexCursor chars none) fun d left =>
    d.failed = false ∧ chars.drop d.index = left where
  peek := by
    rintro d _ ⟨healthy, rfl⟩
    change d.peek = _
    rw [IndexCursor.peek, healthy, List.head?_drop]
    by_cases inside : d.index < chars.length
    · simp only [Bool.false_eq_true, if_false, dif_pos inside, List.getElem?_eq_getElem inside]
    · simp only [Bool.false_eq_true, if_false, dif_neg inside, List.getElem?_eq_none (Nat.not_lt.1 inside)]
      rfl
  read_end := by
    rintro d ⟨healthy, ended⟩
    have outside : ¬d.index < chars.length := Nat.not_lt.2 (List.drop_eq_nil_iff.1 ended)
    change d.read = _
    rw [IndexCursor.read, healthy]
    simp only [Bool.false_eq_true, if_false, dif_neg outside]
    rfl
  read_char := by
    rintro d char left ⟨healthy, more⟩
    have inside : d.index < chars.length := Nat.lt_of_not_le fun outside => by
      rw [List.drop_eq_nil_of_le outside] at more
      cases more
    rw [List.drop_eq_getElem_cons inside] at more
    obtain ⟨rfl, rfl⟩ := List.cons.inj more
    refine ⟨{ d with index := d.index + 1, inside := inside }, ?_, ⟨healthy, rfl⟩, rfl⟩
    change d.read = _
    rw [IndexCursor.read, healthy]
    simp only [Bool.false_eq_true, if_false, dif_pos inside]
  remaining := by
    rintro d _ ⟨healthy, rfl⟩
    change String.ofList (d.scan (chars.drop d.index)).1 = _
    rw [IndexCursor.scan, healthy]
    rfl
  free := ⟨fun _ => rfl, fun _ _ => rfl⟩
  rewinds := rewinds chars

/-- Such an index never fails. -/
theorem closed_healthy (chars : List Char) :
    Cursor.Closed (IndexCursor chars none) (fun d => d.failed = false) fun _ => True where
  peek {d} healthy := by
    rw [((handsOut chars).peek ⟨healthy, rfl⟩ : Cursor.peek d = _)]
    exact healthy
  read {d} healthy := by
    rcases left : chars.drop d.index with _ | ⟨char, rest⟩
    · rw [(handsOut chars).read_end ⟨healthy, left⟩]
      exact healthy
    · obtain ⟨e, consumed, behind, -⟩ := (handsOut chars).read_char ⟨healthy, left⟩
      rw [consumed]
      exact behind.1
  remaining {d} healthy := by
    change (d.scan (chars.drop d.index)).2.failed = false
    rw [IndexCursor.scan, healthy]
    exact healthy
  sourceMap {d} healthy := by
    change (d.scan chars).2.failed = false
    rw [IndexCursor.scan, healthy]
    exact healthy
  takeFault healthy := healthy
  mark healthy := ⟨trivial, healthy⟩
  restore healthy _ := healthy
  release healthy _ := healthy

end IndexCursor

/-- A source that can be read to its end, and moved, without a fault. -/
structure Bytes.Source.FaultFree (source : Source) : Prop where
  decodes : ∃ chars, source.delivering.Decodes chars none
  steady : source.Steady

/-- The primitive parsers are exact wherever they are run: on a text, and on a source that never faults, from
every cursor that can be come by, whatever room the buffer has and whether or not a character has been looked
at.

They match exactly if what is left of the document begins with the text, has enough characters, has an allowed
character first, or is at its end. A success consumes just the text that was matched. A failure is the only one,
has the position where the parser began and a message that says what was found where first something differs,
and leaves a cursor that nothing tells from the one before.

The one exception is a block of more characters than there can be room for, one byte for each: it stops the run
before anything is read, even though no document has so many characters. -/
theorem primitives_are_exact (grammar : Grammar R) :
    (∀ (c : TextCursor) points, Cursor.PrimitivesMeet grammar points c) ∧
    ∀ source : Source, source.FaultFree → ∀ capacity points c,
      Cursor.Reached (ByteCursor.ofSource source capacity) points c → Cursor.PrimitivesMeet grammar points c := by
  constructor
  · intro c points
    exact Cursor.Mirror.primitivesMeet (m := .refl TextCursor) TextCursor.handsOut
      (fun p q => p.trans q.symm) (fun point _ => ⟨point, rfl⟩) rfl rfl grammar
  · rintro source ⟨⟨chars, hdoc⟩, steady⟩ capacity points c reached
    obtain ⟨stands, serves, fresh⟩ := ByteCursor.exists_servesAnywhere hdoc steady
    have closed := (ByteCursor.indexed serves).closed_of (IndexCursor.closed_healthy chars)
    obtain ⟨⟨d, follows, healthy⟩, known⟩ :=
      closed.reached ⟨_, ByteCursor.follows_start fresh capacity, rfl⟩ reached
    exact Cursor.Mirror.primitivesMeet (m := ByteCursor.indexed serves) (IndexCursor.handsOut chars)
      (fun p q => p.trans q.symm) (fun point made => (known point made).imp fun _ => And.left) follows ⟨healthy, rfl⟩ grammar

/-- Bytes that come one at a time, through a buffer smaller than a character, where the second character has been
looked at: a literal gives back two characters that it has read across many refills, and names the third. Then
all three can still be read. There is no room for as many as can be counted in 64 bits. -/
theorem primitives_are_exact_across_refills :
    let source : Source :=
      { Source.ofBytes #[0x61, 0xc3, 0xa9, 0xe2, 0x82, 0xac, 0xf0, 0x9f, 0x98, 0x80] with chunk := some 1 }
    let c := (Cursor.peek (Cursor.read (ByteCursor.ofSource source 2)).2).2
    source.FaultFree ∧ c.peeked = some 'é' ∧
      (∃ d, (literal "é€x").Yields Grammar.empty c (.finished d (.fail "Expected `é€x` but found `😀`." 1)) ∧
        Cursor.Indistinguishable [] d c) ∧
      (∃ d, (characters 3).Yields Grammar.empty c (.finished d (.success "é€😀" 4)) ∧ Cursor.left d = []) ∧
      (characters 18446744073709551615).Overflows Grammar.empty c ∧
      (characters 18446744073709551615).Overflows Grammar.empty (TextCursor.ofText "abc") := by
  intro source c
  have faultFree : source.FaultFree := ⟨⟨"aé€😀".toList, [], by decide, rfl⟩, fun _ => rfl, fun _ => rfl⟩
  obtain ⟨onText, onSource⟩ := primitives_are_exact Grammar.empty
  have exact := onSource source faultFree 2 [] c Cursor.Reached.start.read.peek
  have left : Cursor.left c = ['é', '€', '😀'] := by decide +kernel
  have place : Cursor.position c = 1 := by decide +kernel
  refine ⟨faultFree, by decide +kernel, ?_, ?_, exact.overflows _ (by decide),
    (onText _ []).overflows _ (by decide)⟩
  · have meets := exact.literal "é€x"
    obtain ⟨d, value | failures, ran⟩ := meets.ends
    · have accepted : "é€x".toList <+: Cursor.left c := meets.success_iff.1 ⟨_, _, _, ran⟩
      rw [left] at accepted
      exact absurd accepted (by decide)
    · obtain ⟨⟨message, rfl, found, differs, rfl⟩, unchanged⟩ := meets.failure d failures ran
      rw [left] at differs
      obtain rfl := differs.unique (.behind (.behind (.here rfl (by decide))))
      rw [place] at ran
      exact ⟨d, ran, unchanged⟩
  · have meets := exact.characters 3 (by decide)
    have enough : 3 ≤ (Cursor.left c).length := by rw [left]; decide
    obtain ⟨d, value, position, ran⟩ := meets.success_iff.2 enough
    obtain ⟨token, ⟨rfl, length⟩, split, moved, rfl⟩ := meets.success d value position ran
    rw [left, ← List.append_nil ['é', '€', '😀']] at split
    obtain ⟨rfl, behind⟩ := List.append_inj split length.symm
    rw [moved, place] at ran
    exact ⟨d, ran, behind.symm⟩

end Parsing
