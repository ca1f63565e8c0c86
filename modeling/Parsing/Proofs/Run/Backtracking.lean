import Parsing.Proofs.Parser.Alternatives
import Parsing.Proofs.Parser.Applications
import Parsing.Proofs.Run.Bounds

/-!
# Going back is exact

An attempt that fails, and a look-ahead that succeeds, take the cursor back to the mark that was made before.
Over bytes this does not bring back the cursor as it was: the buffer may have been filled anew many times, the
source stands somewhere else, and a character that had been looked at has to be decoded again. But nobody can
tell. What can be asked of the cursor has the same answers as before, now and later on, whether it is asked for
characters, for the rest, for the newlines, by a parser, or after a return to an older mark.

So an alternative behind an attempt sees exactly what the attempt has seen.
-/

namespace Parsing

open Parsing.Parser Bytes

variable {R : Type → Type} {S T : Type} [Cursor S] [Cursor T] {α : Type} {grammar : Grammar R}

/-- A session with one handle that knows marks from before. -/
def Session.withMarks (c : S) (marks : List (String × Cursor.Point S)) : Session S :=
  { Session.ofCursor c with points := marks }

/-- Nothing tells two cursors apart: they have the same position, the same mark would be made of them, and all
that can be asked of them from now on has the same answers, also with marks from before. -/
structure Cursor.Indistinguishable [Inspectable S] (points : List (Cursor.Point S)) (c d : S) : Prop where
  position_eq : Cursor.position c = Cursor.position d
  mark_eq : (Cursor.mark c).1 = (Cursor.mark d).1
  answers_eq : ∀ {R : Type → Type} {α : Type} (grammar : Grammar R) (budget : Nat)
    (marks : List (String × Cursor.Point S)), (∀ mark ∈ marks, mark.2 ∈ points) →
    ∀ commands : List (Nat × Command R α),
      ((Session.withMarks c marks).run grammar budget commands).map Prod.fst =
        ((Session.withMarks d marks).run grammar budget commands).map Prod.fst

/-- Two runs have ended in the same way, with cursors that nothing tells apart. -/
inductive Parser.Halt.Agree [Inspectable S] (points : List (Cursor.Point S)) :
    Halt S α → Halt S α → Prop
  | finished {c d : S} (result : Result α) (h : Cursor.Indistinguishable points c d) :
      Agree points (.finished c result) (.finished d result)
  | stopped {c d : S} (why : Stop) (h : Cursor.Indistinguishable points c d) :
      Agree points (.stopped why c) (.stopped why d)

namespace Cursor.Mirror

variable [Inspectable S] [Inspectable T] {m : Cursor.Mirror S T}

/-- Runs from cursors that answer alike end alike. -/
theorem yields {c : S} {d : T} (h : m.alike c d) {parser : Parser R α} {halt : Halt S α}
    (ran : parser.Yields grammar c halt) :
    ∃ other, parser.Yields grammar d other ∧ Halt.Alike m.toSimulation halt other := by
  obtain ⟨budget, ran⟩ := ran
  have mirrored := m.run grammar budget parser h
  rw [ran] at mirrored
  cases other : parser.run grammar budget d with
  | none =>
    rw [other] at mirrored
    cases mirrored
  | some halt' =>
    rw [other] at mirrored
    cases mirrored with
    | some alike => exact ⟨halt', ⟨budget, other⟩, alike⟩

/-- Each run of the other cursor is matched by one that ends alike. -/
theorem exists_yields {c : S} {d : T} (h : m.alike c d) {parser : Parser R α} {halt : Halt T α}
    (ran : parser.Yields grammar d halt) :
    ∃ other, parser.Yields grammar c other ∧ Halt.Alike m.toSimulation other halt := by
  obtain ⟨budget, ran⟩ := ran
  have mirrored := m.run grammar budget parser h
  rw [ran] at mirrored
  generalize ended : parser.run grammar budget c = other at mirrored
  cases mirrored with
  | some alike => exact ⟨_, ⟨budget, ended⟩, alike⟩

variable {c d : S}

/-- Sessions that begin with cursors that answer alike and know the same marks. -/
theorem alike_withMarks (h : m.kernel.alike c d) {points : List (Cursor.Point S)}
    (known : ∀ point ∈ points, ∃ r, m.points point r) {marks : List (String × Cursor.Point S)}
    (among : ∀ mark ∈ marks, mark.2 ∈ points) :
    (Session.withMarks c marks).Alike m.kernel (Session.withMarks d marks) := by
  refine ⟨(Session.alike_ofCursor h).cursors, rfl, rfl, ?_, rfl⟩
  intro name
  change Option.Rel m.kernel.points (marks.lookup name) (marks.lookup name)
  cases found : marks.lookup name with
  | none => exact .none
  | some point =>
    obtain ⟨before, behind, rfl, -⟩ := List.lookup_eq_some_iff.1 found
    obtain ⟨r, made⟩ := known point (among (name, point) List.mem_append_cons_self)
    exact .some ⟨r, made, made⟩

/-- Cursors that answer like the same other cursor cannot be told apart, if a mark can be told by how it is
answered for. -/
theorem indistinguishable (h : m.kernel.alike c d)
    (exact : ∀ {p q : Cursor.Point S} {r : Cursor.Point T}, m.points p r → m.points q r → p = q)
    {points : List (Cursor.Point S)} (known : ∀ point ∈ points, ∃ r, m.points point r) :
    Cursor.Indistinguishable points c d where
  position_eq := m.kernel.position_eq h
  mark_eq := by
    obtain ⟨r, here, there⟩ := (m.kernel.mark_alike h).1
    exact exact here there
  answers_eq grammar budget _ among commands :=
    (alike_withMarks h known among).answers_eq grammar budget commands

end Cursor.Mirror

/-- Marks are made and given up without a trace. -/
structure Cursor.MarksFreely (S : Type) [Cursor S] : Prop where
  mark : ∀ c : S, (Cursor.mark c).2 = c
  release : ∀ (c : S) (point : Cursor.Point S), Cursor.release c point = c

/-- Behind a run a return to where it began brings back the same cursor. -/
def Cursor.Rewinds (T : Type) [Cursor T] : Prop :=
  ∀ {R : Type → Type} {α : Type} {grammar : Grammar R} {parser : Parser R α} {c d : T} {result : Result α},
    parser.Yields grammar c (.finished d result) → Cursor.restore d (Cursor.mark c).1 = c

namespace Parser

section

variable [Inspectable S] (grammar : Grammar R) (parser other : Parser R α) (points : List (Cursor.Point S))
  (c : S)

/-- An attempt ends as its parser does, and if that fails then nothing has happened to the cursor. -/
structure AttemptsExactly : Prop where
  success : ∀ d value position, (attempt parser).Yields grammar c (.finished d (.success value position)) ↔
    parser.Yields grammar c (.finished d (.success value position))
  failure : ∀ failures, (∃ d, (attempt parser).Yields grammar c (.finished d (.failure failures))) ↔
    ∃ d, parser.Yields grammar c (.finished d (.failure failures))
  stopped : ∀ why d, (attempt parser).Yields grammar c (.stopped why d) ↔ parser.Yields grammar c (.stopped why d)
  back : ∀ d failures, (attempt parser).Yields grammar c (.finished d (.failure failures)) →
    Cursor.Indistinguishable points d c

/-- A look-ahead ends as its parser does, and if that succeeds then nothing has happened to the cursor. -/
structure LooksAheadExactly : Prop where
  success : ∀ value position,
    (∃ d, (lookAhead parser).Yields grammar c (.finished d (.success value position))) ↔
      ∃ d, parser.Yields grammar c (.finished d (.success value position))
  failure : ∀ d failures, (lookAhead parser).Yields grammar c (.finished d (.failure failures)) ↔
    parser.Yields grammar c (.finished d (.failure failures))
  stopped : ∀ why d, (lookAhead parser).Yields grammar c (.stopped why d) ↔ parser.Yields grammar c (.stopped why d)
  back : ∀ d value position, (lookAhead parser).Yields grammar c (.finished d (.success value position)) →
    Cursor.Indistinguishable points d c

/-- A choice behind an attempt ends as the attempt unless that fails. If it does, the other parser runs as it
would have run from the cursor at first. -/
structure FallsBackExactly : Prop where
  first : ∀ halt, halt.isFailure = false → parser.Yields grammar c halt →
    (choice (attempt parser) other).Yields grammar c halt
  second : ∀ d failures, parser.Yields grammar c (.finished d (.failure failures)) →
    (∀ halt, (choice (attempt parser) other).Yields grammar c halt →
      ∃ last, other.Yields grammar c last ∧ halt.Agree points (last.after failures)) ∧
    ∀ last, other.Yields grammar c last →
      ∃ halt, (choice (attempt parser) other).Yields grammar c halt ∧ halt.Agree points (last.after failures)
  ends : ∀ halt, (choice (attempt parser) other).Yields grammar c halt →
    ∃ attempted, parser.Yields grammar c attempted

/-- All that goes back from a run of the parser goes back exactly, and an attempt at a look-ahead always
does. -/
structure BacktracksExactly : Prop where
  attempt : AttemptsExactly grammar parser points c
  lookAhead : LooksAheadExactly grammar parser points c
  choice : FallsBackExactly grammar parser other points c
  stays : ∀ d result, (Parser.attempt (Parser.lookAhead parser)).Yields grammar c (.finished d result) →
    Cursor.Indistinguishable points d c

end

end Parser

section

variable {c d : S} {halt : Halt S α} {parser : Parser R α}

namespace Parser.Halt

variable {ended : Halt S α → Prop} {success failure : S → S}

omit [Cursor S] in
/-- A success is where a success was moved to. -/
theorem exists_move_success_iff {value : α} {position : Nat} :
    (∃ last, ended last ∧ last.move success failure = .finished d (.success value position)) ↔
      ∃ e, ended (.finished e (.success value position)) ∧ success e = d := by
  constructor
  · rintro ⟨⟨e, value | failures⟩ | ⟨why, e⟩, ran, moved⟩ <;> cases moved
    exact ⟨e, ran, rfl⟩
  · rintro ⟨e, ran, rfl⟩
    exact ⟨_, ran, rfl⟩

omit [Cursor S] in
/-- A failure is where a failure was moved to. -/
theorem exists_move_failure_iff {failures : Failures} :
    (∃ last, ended last ∧ last.move success failure = .finished d (.failure failures)) ↔
      ∃ e, ended (.finished e (.failure failures)) ∧ failure e = d := by
  constructor
  · rintro ⟨⟨e, value | failures⟩ | ⟨why, e⟩, ran, moved⟩ <;> cases moved
    exact ⟨e, ran, rfl⟩
  · rintro ⟨e, ran, rfl⟩
    exact ⟨_, ran, rfl⟩

omit [Cursor S] in
/-- A stop is not moved. -/
theorem exists_move_stopped_iff {why : Stop} :
    (∃ last, ended last ∧ last.move success failure = .stopped why d) ↔ ended (.stopped why d) := by
  constructor
  · rintro ⟨⟨e, value | failures⟩ | ⟨why, e⟩, ran, moved⟩ <;> cases moved
    exact ran
  · intro ran
    exact ⟨_, ran, rfl⟩

end Parser.Halt

/-- An attempt runs its parser, and then goes back or stays. -/
theorem Cursor.MarksFreely.yields_attempt_iff (free : Cursor.MarksFreely S) :
    (attempt parser).Yields grammar c halt ↔ ∃ last, parser.Yields grammar c last ∧
      last.move id (Cursor.restore · (Cursor.mark c).1) = halt := by
  rw [Parser.yields_attempt_iff, free.mark]
  apply exists_congr
  rintro (⟨d, value | failures⟩ | d)
  · dsimp only
    rw [free.release]
    rfl
  · rfl
  · rfl

/-- A look-ahead runs its parser, and then goes back or stays. -/
theorem Cursor.MarksFreely.yields_lookAhead_iff (free : Cursor.MarksFreely S) :
    (lookAhead parser).Yields grammar c halt ↔ ∃ last, parser.Yields grammar c last ∧
      last.move (Cursor.restore · (Cursor.mark c).1) id = halt := by
  rw [Parser.yields_lookAhead_iff, free.mark]
  apply exists_congr
  rintro (⟨d, value | failures⟩ | d)
  · rfl
  · dsimp only
    rw [free.release]
    rfl
  · rfl

end

namespace Cursor.Mirror

variable [Inspectable S] [Inspectable T] {m : Cursor.Mirror S T} {c : S} {e : T} {parser other : Parser R α}

/-- A return to where a run began leads to a cursor that answers like the one before the run. -/
theorem restore_alike_of_yields (rewinds : Cursor.Rewinds T) (h : m.alike c e) {d : S} {result : Result α}
    (ran : parser.Yields grammar c (.finished d result)) :
    m.kernel.alike (Cursor.restore d (Cursor.mark c).1) c := by
  obtain ⟨_, ran', alike⟩ := m.yields h ran
  cases alike with
  | finished _ alike =>
    have returned := m.restore_alike alike (m.mark_alike h).1
    rw [rewinds ran'] at returned
    exact ⟨e, returned, h⟩

/-- Halts that are alike agree, and also if failures are put in front of both. -/
theorem agree_after {halt last : Halt S α} (alike : Halt.Alike m.kernel.toSimulation halt last)
    {points : List (Cursor.Point S)}
    (same : ∀ {c d}, m.kernel.alike c d → Cursor.Indistinguishable points c d) (failures : Failures) :
    Halt.Agree points (halt.after failures) (last.after failures) := by
  cases alike with
  | finished result alike => exact .finished _ (same alike)
  | stopped why alike => exact .stopped why (same alike)

section

variable (free : Cursor.MarksFreely S) {points : List (Cursor.Point S)}
  (same : ∀ {c d}, m.kernel.alike c d → Cursor.Indistinguishable points c d)
  (back : ∀ {d : S} {result : Result α}, parser.Yields grammar c (.finished d result) →
    m.kernel.alike (Cursor.restore d (Cursor.mark c).1) c)

include free same back

/-- Attempts are exact on such a cursor. -/
theorem attemptsExactly : AttemptsExactly grammar parser points c where
  success d value position := by
    simp only [free.yields_attempt_iff, Halt.exists_move_success_iff, id_eq, exists_eq_right]
  failure failures := by
    simp only [free.yields_attempt_iff, Halt.exists_move_failure_iff]
    constructor
    · rintro ⟨-, e, ran, -⟩
      exact ⟨e, ran⟩
    · rintro ⟨e, ran⟩
      exact ⟨_, e, ran, rfl⟩
  stopped why d := by
    rw [free.yields_attempt_iff, Halt.exists_move_stopped_iff]
  back d failures ran := by
    obtain ⟨e, inner, rfl⟩ := Halt.exists_move_failure_iff.1 (free.yields_attempt_iff.1 ran)
    exact same (back inner)

/-- Look-aheads are exact on such a cursor. -/
theorem looksAheadExactly : LooksAheadExactly grammar parser points c where
  success value position := by
    simp only [free.yields_lookAhead_iff, Halt.exists_move_success_iff]
    constructor
    · rintro ⟨-, e, ran, -⟩
      exact ⟨e, ran⟩
    · rintro ⟨e, ran⟩
      exact ⟨_, e, ran, rfl⟩
  failure d failures := by
    simp only [free.yields_lookAhead_iff, Halt.exists_move_failure_iff, id_eq, exists_eq_right]
  stopped why d := by
    rw [free.yields_lookAhead_iff, Halt.exists_move_stopped_iff]
  back d value position ran := by
    obtain ⟨e, inner, rfl⟩ := Halt.exists_move_success_iff.1 (free.yields_lookAhead_iff.1 ran)
    exact same (back inner)

/-- Choices are exact on such a cursor. -/
theorem fallsBackExactly (other : Parser R α) : FallsBackExactly grammar parser other points c where
  first halt settled ran := by
    have attempted : (attempt parser).Yields grammar c halt := by
      refine free.yields_attempt_iff.2 ⟨halt, ran, ?_⟩
      rcases halt with ⟨d, value | failures⟩ | ⟨why, d⟩
      · rfl
      · cases settled
      · rfl
    exact yields_choice_of_settles attempted (Halt.settles_of_not_isFailure settled)
  second d failures ran := by
    have returned := back ran
    have attempted : (attempt parser).Yields grammar c
        (.finished (Cursor.restore d (Cursor.mark c).1) (.failure failures)) :=
      free.yields_attempt_iff.2 ⟨_, ran, rfl⟩
    have place := m.kernel.position_eq returned
    constructor
    · intro halt chosen
      obtain ⟨last, ran', rfl⟩ := (yields_choice_iff_of_failure attempted place).1 chosen
      obtain ⟨final, original, alike⟩ := m.kernel.yields returned ran'
      exact ⟨final, original, agree_after alike same failures⟩
    · intro last original
      -- from the cursor that was taken back the run ends too, and runs end in one way only
      obtain ⟨e, there, here⟩ := returned
      obtain ⟨final, ran', -⟩ := m.kernel.yields ⟨e, here, there⟩ original
      obtain ⟨last', original', alike⟩ := m.kernel.yields ⟨e, there, here⟩ ran'
      rw [original.unique original']
      exact ⟨_, yields_choice_of_failure attempted place ran', agree_after alike same failures⟩
  ends halt ran := by
    rcases yields_choice_cases ran with ⟨attempted, -⟩ | ⟨d, failures, last, attempted, -⟩
    · exact (free.yields_attempt_iff.1 attempted).imp fun _ => And.left
    · exact (free.yields_attempt_iff.1 attempted).imp fun _ => And.left

end

/-- Going back is exact on a cursor that answers like another one which comes back as it was, if marks are
made freely and can be told by how they are answered for. -/
theorem backtracksExactly (free : Cursor.MarksFreely S) (rewinds : Cursor.Rewinds T)
    (exact : ∀ {p q : Cursor.Point S} {r : Cursor.Point T}, m.points p r → m.points q r → p = q)
    {points : List (Cursor.Point S)} (known : ∀ point ∈ points, ∃ r, m.points point r) (h : m.alike c e)
    (grammar : Grammar R) (parser other : Parser R α) :
    BacktracksExactly grammar parser other points c := by
  have same {c d : S} (alike : m.kernel.alike c d) : Cursor.Indistinguishable points c d :=
    indistinguishable alike exact known
  have back {d : S} {result : Result α} (ran : parser.Yields grammar c (.finished d result)) :
      m.kernel.alike (Cursor.restore d (Cursor.mark c).1) c :=
    restore_alike_of_yields rewinds h ran
  have looked := looksAheadExactly free same back
  refine ⟨attemptsExactly free same back, looked, fallsBackExactly free same back other, ?_⟩
  intro d result ran
  cases result with
  | success value position =>
    obtain ⟨f, inner, rfl⟩ := Halt.exists_move_success_iff.1 (free.yields_attempt_iff.1 ran)
    exact looked.back f value position inner
  | failure failures =>
    obtain ⟨f, inner, rfl⟩ := Halt.exists_move_failure_iff.1 (free.yields_attempt_iff.1 ran)
    exact same (restore_alike_of_yields rewinds h inner)

end Cursor.Mirror

/-- A text cursor comes back as it was. -/
theorem TextCursor.rewinds : Cursor.Rewinds TextCursor := Parser.restore_text

/-- An index into a document behind which no fault stands comes back as it was: it never fails. -/
theorem IndexCursor.rewinds (chars : List Char) : Cursor.Rewinds (IndexCursor chars none) := by
  intro R α grammar parser c d result ran
  -- a return only sets the index, so the rest must not have changed
  have keeps : Cursor.Keeps (IndexCursor chars none) fun d => d.failed = c.failed ∧ d.fault = c.fault :=
    { peek := fun d h => by
        change d.peek.2.failed = _ ∧ d.peek.2.fault = _
        unfold IndexCursor.peek
        split
        · exact h
        · split <;> exact h
      read := fun d h => by
        change d.read.2.failed = _ ∧ d.read.2.fault = _
        unfold IndexCursor.read
        split
        · exact h
        · split <;> exact h
      mark := fun _ h => h
      restore := fun _ _ h => h
      release := fun _ _ h => h }
  obtain ⟨budget, ran⟩ := ran
  obtain ⟨failed, fault⟩ := keeps.run ran ⟨rfl, rfl⟩
  change d.failed = c.failed at failed
  change d.fault = c.fault at fault
  change (⟨c.index, c.inside, d.failed, d.fault⟩ : IndexCursor chars none) = c
  rw [failed, fault]

/-- Going back is exact, whatever the parsers are, on a text and on a source that holds a text and never faults,
from every cursor that can be come by, whatever room the buffer has and whether or not a character has been
looked at.

An attempt and a look-ahead end as their parser does. Behind an attempt that fails, and behind a look-ahead
that succeeds, nothing tells the cursor from the one before, also not a return to an older mark. Otherwise the
cursor is where the parser has left it. So a choice goes on behind an attempt exactly if that fails, and then
ends as its second parser ends from the cursor at first, and an attempt at a look-ahead never moves the
cursor. -/
theorem backtracking_is_exact (grammar : Grammar R) (parser other : Parser R α) (text : String) :
    (∀ points c, Cursor.Reached (TextCursor.ofText text) points c →
      BacktracksExactly grammar parser other points c) ∧
    ∀ source : Source, source.Holds text → source.breakdown = none → source.Steady → ∀ capacity points c,
      Cursor.Reached (ByteCursor.ofSource source capacity) points c →
      BacktracksExactly grammar parser other points c := by
  constructor
  · intro points c _
    exact Cursor.Mirror.backtracksExactly (m := .refl TextCursor) ⟨fun _ => rfl, fun _ _ => rfl⟩
      TextCursor.rewinds (fun p q => p.trans q.symm) (fun point _ => ⟨point, rfl⟩) rfl grammar parser other
  · intro source holds hbreakdown steady capacity points c reached
    obtain ⟨chars, hdoc, -⟩ := holds.exists_decodes hbreakdown
    obtain ⟨stands, serves, fresh⟩ := ByteCursor.exists_servesAnywhere hdoc steady
    have start : ∃ d, (ByteCursor.indexed serves).alike (.ofSource source capacity) d :=
      ⟨_, ByteCursor.follows_start fresh capacity⟩
    obtain ⟨⟨d, follows⟩, known⟩ := (ByteCursor.indexed serves).closed.reached start reached
    exact Cursor.Mirror.backtracksExactly (m := ByteCursor.indexed serves)
      ⟨fun _ => rfl, fun _ _ => rfl⟩ (IndexCursor.rewinds chars) (fun p q => p.trans q.symm) known follows
      grammar parser other

/-- Behind a character that was consumed on a text, and over bytes that come one at a time, where the first has
been looked at: the attempt reads up to the end, fails there, and goes back to where nothing has happened. -/
theorem backtracking_is_exact_from_end :
    let source : Source := { Source.ofBytes #[0x61, 0xc3, 0xa9] with chunk := some 1 }
    let c := (Cursor.peek (ByteCursor.ofSource source 2)).2
    let parser : Parser NoRule String := bind (characters 2) fun _ => literal "x"
    BacktracksExactly Grammar.empty parser (literal "é") [] (Cursor.read (TextCursor.ofText "aé")).2 ∧
      source.Holds "aé" ∧ c.peeked = some 'a' ∧
      (∃ d failures, (attempt parser).Yields Grammar.empty c (.finished d (.failure failures)) ∧
        Cursor.Indistinguishable [] d c) ∧
      ∃ halt, (choice (attempt parser) (literal "aé")).Yields Grammar.empty c halt ∧
        halt.isFailure = false := by
  intro source c parser
  obtain ⟨onText, -⟩ := backtracking_is_exact Grammar.empty parser (literal "é") "aé"
  obtain ⟨-, onSource⟩ := backtracking_is_exact Grammar.empty parser (literal "aé") "aé"
  have holds : source.Holds "aé" := by decide
  have exact := onSource source holds rfl ⟨fun _ => rfl, fun _ => rfl⟩ 2 [] c Cursor.Reached.start.peek
  have failing : (parser.run Grammar.empty 40 c).any Halt.isFailure = true := by decide +kernel
  have matching : ((literal "aé").run Grammar.empty 40 c).any (!·.isFailure) = true := by decide +kernel
  obtain ⟨⟨d, _ | failures⟩ | d, failed, shown⟩ := (Option.any_eq_true _ _).1 failing <;> cases shown
  obtain ⟨last, matched, shown⟩ := (Option.any_eq_true _ _).1 matching
  refine ⟨onText [] _ Cursor.Reached.start.read, holds, by decide +kernel, ?_, ?_⟩
  · obtain ⟨f, attempted⟩ := (exact.attempt.failure failures).2 ⟨d, 40, failed⟩
    exact ⟨f, failures, attempted, exact.attempt.back f failures attempted⟩
  · obtain ⟨halt, ran, agree⟩ := (exact.choice.second d failures ⟨40, failed⟩).2 last ⟨40, matched⟩
    refine ⟨halt, ran, ?_⟩
    rcases last with ⟨e, value | later⟩ | ⟨why, e⟩
    · cases agree
      rfl
    · cases shown
    · cases agree
      rfl

end Parsing
