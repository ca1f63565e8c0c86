import Parsing.Cursor.Text
import Parsing.Parser.Combinator
import Parsing.Proofs.Machine.Invariant
import Parsing.Run

/-!
# Reports list attempts

A scan that does not match raises failures. All that a run does with them afterwards is to keep or to
drop them: pending work holds the failures of earlier alternatives, oldest first, later failures are put
behind these, and a success drops them. So the failures that are reported in the end are some of those
that were raised, in the order in which they were raised, and none is used twice.
-/

namespace Parsing

/-- Outcomes can be compared if errors and values can. -/
instance decidableEqOutcome {ε β : Type} [DecidableEq ε] [DecidableEq β] : DecidableEq (Except ε β)
  | .ok a, .ok b => decidable_of_decidable_of_iff (Iff.of_eq (Except.ok.injEq a b)).symm
  | .error a, .error b => decidable_of_decidable_of_iff (Iff.of_eq (Except.error.injEq a b)).symm
  | .ok _, .error _ => isFalse nofun
  | .error _, .ok _ => isFalse nofun

variable {R : Type → Type} {S : Type} [Cursor S] {α β γ : Type}

namespace Result

/-- The failures of a result, oldest first; a success has none. -/
def failureList : Result α → List Failure
  | success _ _ => []
  | failure failures => failures.toList

/-- A success lists no failures. -/
@[simp] theorem failureList_success (value : α) (position : Nat) :
    (success value position).failureList = [] := rfl

/-- A failure lists its failures. -/
@[simp] theorem failureList_failure (failures : Failures) :
    (failure failures : Result α).failureList = failures.toList := rfl

/-- The list of failures does not depend on the value. -/
@[simp] theorem failureList_map (f : α → β) (result : Result α) :
    (result.map f).failureList = result.failureList := by
  cases result <;> rfl

/-- The failures of earlier alternatives are put in front, or all are dropped. -/
theorem failureList_after (earlier : Failures) (result : Result α) :
    (result.after earlier).failureList.Sublist (earlier.toList ++ result.failureList) := by
  cases result with
  | success => exact List.nil_sublist _
  | failure later => exact .refl _

end Result

/-- The failures that a scan raises where the cursor is. -/
def Scan.raises (program : Scan α) (c : S) : List Failure :=
  match (program.run c).1 with
  | .ok result => result.failureList
  | .error _ => []

namespace Parser

/-- The failures of earlier alternatives that a frame holds. -/
def Frame.earlier {P : Type} : Frame R P α β → List Failure
  | after earlier => earlier.toList
  | _ => []

/-- The failures of earlier alternatives that pending work holds, oldest first. -/
def Continuation.earlier {P : Type} {α γ : Type} : Continuation R P α γ → List Failure
  | done => []
  | push frame rest => rest.earlier ++ frame.earlier

/-- The failures that a run under way may still report, oldest first. -/
def State.held : State R S γ → List Failure
  | start _ _ rest => rest.earlier
  | resume rest _ result => rest.earlier ++ result.failureList

/-- The failures that a parser raises when it is started: only scans raise any. -/
def raises : Parser R α → S → List Failure
  | scan program, c => program.raises c
  | _, _ => []

/-- The failures that the next step raises. -/
def State.raises : State R S γ → List Failure
  | start parser c _ => parser.raises c
  | resume _ _ _ => []

end Parser

namespace Trampoline

/-- The failures that a run reports, or that it may still report. -/
def held : Trampoline (Parser.State R S γ) (Parser.Halt S γ) → List Failure
  | done (.finished _ result) => result.failureList
  | done (.stopped _ _) => []
  | tail state => state.held

/-- The failures that are raised in the next steps, at most `budget` of them, oldest first. -/
def raised (grammar : Grammar R) : Nat → Trampoline (Parser.State R S γ) (Parser.Halt S γ) → List Failure
  | budget + 1, tail state => state.raises ++ raised grammar budget (state.step grammar)
  | _, _ => []

end Trampoline

namespace Parser

/-- The failures that scans raise in a run of at most `budget` steps, in the order in which they are
raised. -/
def raised (grammar : Grammar R) (budget : Nat) (parser : Parser R α) (c : S) : List Failure :=
  Trampoline.raised grammar budget (.tail (.start parser c .done))

namespace State

/-- What is raised at the start of a parser comes behind what pending work holds. -/
theorem held_enter (grammar : Grammar R) (parser : Parser R α) (c : S)
    (rest : Continuation R (Cursor.Point S) α γ) :
    (enter grammar parser c rest).held.Sublist (rest.earlier ++ parser.raises c) := by
  cases parser with
  | scan program =>
    rw [enter, Parser.raises, Scan.raises]
    rcases program.run c with ⟨_ | result, d⟩
    · exact List.nil_sublist _
    · exact .refl _
  | _ => simp [enter, Trampoline.held, held, Parser.raises, Continuation.earlier, Frame.earlier]

/-- A frame puts the failures of a result behind those that it holds, or drops some of them. -/
theorem held_continueWith (frame : Frame R (Cursor.Point S) α β) (c : S) (result : Result α)
    (rest : Continuation R (Cursor.Point S) β γ) :
    (continueWith frame c result rest).held.Sublist (rest.earlier ++ (frame.earlier ++ result.failureList)) := by
  cases frame with
  | map f => simp [continueWith, held, Frame.earlier]
  | after earlier => exact (result.failureList_after earlier).append_left _
  | choice origin second =>
    cases result with
    | success => simp [continueWith, held]
    | failure failures =>
      rw [continueWith]
      split <;> exact .refl _
  | collect item newestFirst origin =>
    cases result with
    | failure failures => exact .refl _
    | success value position =>
      cases value with
      | none => simp [continueWith, held]
      | some value =>
        rw [continueWith]
        split <;> simp [held]
  | _ => cases result <;> simp [continueWith, held, Frame.earlier]

/-- After a step no other failures may be reported than those that might be before it, followed by those
that the step raises. -/
theorem held_step (grammar : Grammar R) (state : State R S γ) :
    (state.step grammar).held.Sublist (state.held ++ state.raises) := by
  cases state with
  | start parser c rest => exact held_enter grammar parser c rest
  | resume rest c result =>
    rw [raises, List.append_nil]
    cases rest with
    | done => exact .refl _
    | push frame rest =>
      have handed := held_continueWith frame c result rest
      rwa [← List.append_assoc] at handed

end State

end Parser

/-- What a run reports, or may still report, is what it might report when it began, followed by what it
has raised since, with some of it dropped. -/
theorem Trampoline.held_advance (grammar : Grammar R) (budget : Nat)
    (start : Trampoline (Parser.State R S γ) (Parser.Halt S γ)) :
    (start.advance (Parser.State.step grammar) budget).held.Sublist
      (start.held ++ start.raised grammar budget) := by
  induction budget generalizing start with
  | zero => simp
  | succ budget ih =>
    cases start with
    | done halt => simp
    | tail state =>
      rw [advance_succ_tail, raised, ← List.append_assoc]
      exact (ih _).trans ((state.held_step grammar).append_right _)

variable {grammar : Grammar R} {budget : Nat} {parser : Parser R α} {c d : S}

/-- A run that is cut short is not reported. -/
theorem parse_of_none (ran : parser.run grammar budget c = none) :
    parse grammar budget parser c = none := by
  rw [parse, ran]

/-- A run that was stopped is reported as such. -/
theorem parse_of_stopped {why : Stop} (ran : parser.run grammar budget c = some (.stopped why d)) :
    parse grammar budget parser c = some (.error (.stopped why), d) := by
  rw [parse, ran]

/-- The result of a finished run is reported after a look at what is left of the document. -/
theorem parse_of_finished {result : Result α}
    (ran : parser.run grammar budget c = some (.finished d result)) :
    parse grammar budget parser c = some (conclude d result) := by
  rw [parse, ran]

/-- What is reported comes from a run that was stopped, or else from the result of one that finished. -/
theorem parse_cases {outcome : Except Error (Parsed α)}
    (reported : parse grammar budget parser c = some (outcome, d)) :
    (∃ why, parser.run grammar budget c = some (.stopped why d) ∧ outcome = .error (.stopped why)) ∨
    ∃ e result, parser.run grammar budget c = some (.finished e result) ∧ conclude e result = (outcome, d) := by
  cases ran : parser.run grammar budget c with
  | none => cases (parse_of_none ran).symm.trans reported
  | some halt =>
    cases halt with
    | stopped why e =>
      cases (parse_of_stopped ran).symm.trans reported
      exact .inl ⟨why, rfl, rfl⟩
    | finished e result =>
      exact .inr ⟨e, result, rfl, Option.some.inj ((parse_of_finished ran).symm.trans reported)⟩

/-- Failures are reported with their locations, unless a fault is found behind the run or behind the scan
for the newlines. -/
theorem conclude_failure (c : S) (failures : Failures) :
    (∃ fault after, ((Cursor.takeFault c).1 = some fault ∨
        (Cursor.takeFault (Cursor.sourceMap (Cursor.takeFault c).2).2).1 = some fault) ∧
      conclude c (.failure failures : Result α) = (.error (.fault fault), after)) ∨
    ∃ d map e after, Cursor.takeFault c = (none, d) ∧ Cursor.sourceMap d = (map, e) ∧
      Cursor.takeFault e = (none, after) ∧
      conclude c (.failure failures : Result α) = (.error (.mismatch (failures.locate map)), after) := by
  rcases here : Cursor.takeFault c with ⟨_ | fault, d⟩
  · rcases scanned : Cursor.sourceMap d with ⟨map, e⟩
    rcases there : Cursor.takeFault e with ⟨_ | fault, after⟩
    · exact .inr ⟨d, map, e, after, rfl, scanned, there, by simp only [conclude, orFault, here, scanned, there]⟩
    · exact .inl ⟨fault, after, .inr rfl,
        by simp only [conclude, orFault, here, scanned, there]⟩
  · exact .inl ⟨fault, d, .inl rfl, by simp only [conclude, orFault, here]⟩

/-- A value is reported with the rest of the document, unless a fault is found. -/
theorem conclude_success (c : S) (value : α) (position : Nat) :
    (∃ fault after, conclude c (.success value position) = (.error (.fault fault), after)) ∨
    ∃ remaining after, conclude c (.success value position) = (.ok ⟨value, remaining⟩, after) := by
  rcases here : Cursor.takeFault c with ⟨_ | fault, d⟩
  · rcases scanned : Cursor.remaining d with ⟨text, e⟩
    rcases there : Cursor.takeFault e with ⟨_ | fault, after⟩
    · exact .inr ⟨text, after, by simp only [conclude, orFault, here, scanned, there]⟩
    · exact .inl ⟨fault, after, by simp only [conclude, orFault, here, scanned, there]⟩
  · exact .inl ⟨fault, d, by simp only [conclude, orFault, here]⟩

/-- What is reported as a mismatch are the failures of a run, located after a look at the whole document,
and there was no fault before it and behind it. -/
theorem exists_failures_of_parse {located : List LocatedFailure} {after : S}
    (reported : parse grammar budget parser c = some (.error (.mismatch located), after)) :
    ∃ failures d e map g, parser.run grammar budget c = some (.finished d (.failure failures)) ∧
      Cursor.takeFault d = (none, e) ∧ Cursor.sourceMap e = (map, g) ∧ Cursor.takeFault g = (none, after) ∧
      located = failures.locate map := by
  rcases parse_cases reported with ⟨why, -, other⟩ | ⟨d, result, ran, concluded⟩
  · cases other
  · cases result with
    | success value position =>
      rcases conclude_success d value position with ⟨fault, other, settled⟩ | ⟨remaining, other, settled⟩
      · cases concluded.symm.trans settled
      · cases concluded.symm.trans settled
    | failure failures =>
      rcases conclude_failure (α := α) d failures with
        ⟨fault, other, -, settled⟩ | ⟨e, map, g, last, here, scanned, there, settled⟩
      · cases concluded.symm.trans settled
      · cases concluded.symm.trans settled
        exact ⟨failures, d, e, map, g, ran, here, scanned, there, rfl⟩

/-- A failure without its location. -/
def LocatedFailure.failure (located : LocatedFailure) : Failure := ⟨located.message, located.position⟩

/-- A located failure is written as its message, its line and its column. -/
theorem LocatedFailure.render_eq (located : LocatedFailure) : located.render =
    s!"{located.message} @ L: {located.location.line}, C: {located.location.column}" := by
  calc located.render
    _ = located.message ++ " @ " ++
        ("L: " ++ toString located.location.line ++ ", C: " ++ toString located.location.column) := rfl
    _ = located.message ++ (" @ " ++ "L: ") ++ toString located.location.line ++ ", C: " ++
        toString located.location.column := by simp only [String.append_assoc]

/-- Each failure is shown with its line and column, and `OR` stands between them. -/
theorem Error.message_mismatch (located : List LocatedFailure) :
    (mismatch located).message = " OR ".intercalate (located.map fun failure =>
      s!"{failure.message} @ L: {failure.location.line}, C: {failure.location.column}") :=
  congrArg (" OR ".intercalate ·) (List.map_congr_left fun failure _ => failure.render_eq)

/-- Locating failures adds nothing to them but locations. -/
theorem Failures.map_failure_locate (failures : Failures) (map : SourceMap) :
    (failures.locate map).map LocatedFailure.failure = failures.toList := by
  rw [Failures.locate, List.map_map]
  exact List.map_id _

/-- Reports are faithful to the attempts that were made.

* The failures of a run are some of those that its scans raised while it lasted, in the order in which
  they were raised, each used at most once, and their messages and positions are unchanged.
* What is reported for such a run is a fault that the cursor has met, or else just these failures, as
  many and in this order. The text of the report is made up of the messages, each with its location,
  joined by `OR`.
* Failures are reported for no other runs. -/
theorem reports_are_faithful (grammar : Grammar R) (budget : Nat) (parser : Parser R α) (c : S) :
    (∀ d failures, parser.run grammar budget c = some (.finished d (.failure failures)) →
      failures.toList.Sublist (parser.raised grammar budget c) ∧
      ∃ outcome after, parse grammar budget parser c = some (outcome, after) ∧
        ((∃ fault, outcome = .error (.fault fault) ∧ ((Cursor.takeFault d).1 = some fault ∨
            (Cursor.takeFault (Cursor.sourceMap (Cursor.takeFault d).2).2).1 = some fault)) ∨
          ∃ located : List LocatedFailure,
            outcome = .error (.mismatch located) ∧ located.map LocatedFailure.failure = failures.toList ∧
            (Error.mismatch located).message = " OR ".intercalate (located.map fun failure =>
              s!"{failure.message} @ L: {failure.location.line}, C: {failure.location.column}"))) ∧
    (∀ located after, parse grammar budget parser c = some (.error (.mismatch located), after) →
      ∃ d failures, parser.run grammar budget c = some (.finished d (.failure failures)) ∧
        located.map LocatedFailure.failure = failures.toList) := by
  constructor
  · intro d failures ran
    constructor
    · have kept := Trampoline.held_advance grammar budget (.tail (.start parser c .done))
      rwa [Trampoline.advance_of_run _ ran] at kept
    · rw [parse_of_finished ran]
      rcases conclude_failure (α := α) d failures with
        ⟨fault, after, found, settled⟩ | ⟨e, map, g, after, -, -, -, settled⟩
      · exact ⟨_, _, congrArg some settled, .inl ⟨fault, rfl, found⟩⟩
      · exact ⟨_, _, congrArg some settled, .inr ⟨_, rfl, failures.map_failure_locate map,
          Error.message_mismatch _⟩⟩
  · intro located after reported
    obtain ⟨failures, d, e, map, g, ran, -, -, -, rfl⟩ := exists_failures_of_parse reported
    exact ⟨d, failures, ran, failures.map_failure_locate map⟩

/-- A repetition recovers from the first of three failures; only the other two are reported. -/
theorem reports_are_faithful_after_recovery :
    let parser : Parser NoRule String := .chain (.many (.literal "x")) (.choice (.literal "ab") (.literal "ac"))
    let c := TextCursor.ofText "xad"
    let failures : Failures := ⟨⟨"Expected `ab` but found `d`.", 1⟩, [⟨"Expected `ac` but found `d`.", 1⟩]⟩
    parser.raised .empty 40 c = ⟨"Expected `x` but found `a`.", 1⟩ :: failures.toList ∧
      failures.toList.Sublist (parser.raised .empty 40 c) ∧
      ∃ located after, parse .empty 40 parser c = some (.error (.mismatch located), after) ∧
        ∃ d others, parser.run .empty 40 c = some (.finished d (.failure others)) ∧
          located.map LocatedFailure.failure = others.toList := by
  intro parser c failures
  have faithful := reports_are_faithful .empty 40 parser c
  have ran : parser.run .empty 40 c = some (.finished ⟨"xad", ['a', 'd'], 1, 1⟩ (.failure failures)) := rfl
  have reported : parse .empty 40 parser c = some (.error (.mismatch
      [⟨"Expected `ab` but found `d`.", 1, ⟨1, 1⟩⟩, ⟨"Expected `ac` but found `d`.", 1, ⟨1, 1⟩⟩]),
      ⟨"xad", ['a', 'd'], 1, 1⟩) := by decide +kernel
  exact ⟨rfl, (faithful.1 _ _ ran).1, _, _, reported, faithful.2 _ _ reported⟩

end Parsing
