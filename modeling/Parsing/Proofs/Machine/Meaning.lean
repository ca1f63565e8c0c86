import Parsing.Parser.Primitive
import Parsing.Proofs.Machine.Evaluation

/-!
# What parsers mean

What can be observed of a run is where it leaves the cursor, and the value or the failures; of a run that
was stopped only the reason is left to observe. The position that a success claims is not observed.

A parser means what can be observed of its runs, from every cursor. The meaning of an operation is determined
by the meanings of its parts, and not by how these come about. In particular a repetition means rounds that
consume something, as many as there are, and then one last round.
-/

namespace Parsing.Parser

variable {R : Type → Type} {S : Type} [Cursor S] {α β γ : Type}

/-- What can be observed of how a run ended. -/
inductive Observed (S α : Type) where
  | finished (cursor : S) (outcome : Except Failures α)
  | stopped (why : Stop)

namespace Observed

omit [Cursor S]

/-- Change the value. -/
def map (f : α → β) : Observed S α → Observed S β
  | finished c outcome => finished c (outcome.map f)
  | stopped why => stopped why

/-- Put failures of an earlier alternative in front. -/
def after (earlier : Failures) : Observed S α → Observed S α
  | finished c (.ok value) => finished c (.ok value)
  | finished c (.error later) => finished c (.error (earlier ++ later))
  | stopped why => stopped why

/-- Move the cursor, in one way after a success and in another after failures. -/
def move (success failure : S → S) : Observed S α → Observed S α
  | finished c (.ok value) => finished (success c) (.ok value)
  | finished c (.error failures) => finished (failure c) (.error failures)
  | stopped why => stopped why

end Observed

/-- What can be observed of runs from every cursor; nothing, if a run does not end. -/
def Meaning (S α : Type) : Type := S → Observed S α → Prop

namespace Meaning

variable (m : Meaning S α)

/-- A run that succeeds where it starts. -/
def unit (value : α) : Meaning S α := fun c o => o = .finished c (.ok value)

/-- Go on with the value, if there is one. -/
def bind (next : α → Meaning S β) : Meaning S β := fun c o => ∃ middle, m c middle ∧
  match middle with
  | .finished d (.ok value) => next value d o
  | .finished d (.error failures) => o = .finished d (.error failures)
  | .stopped why => o = .stopped why

/-- Change the value. -/
def map (f : α → β) : Meaning S β := fun c o => ∃ middle, m c middle ∧ o = middle.map f

/-- Go on with the second after failures that consumed nothing. -/
def choice (second : Meaning S α) : Meaning S α := fun c o => ∃ middle, m c middle ∧
  match middle with
  | .finished d (.error failures) =>
    if Cursor.position d = Cursor.position c then ∃ last, second d last ∧ o = last.after failures
    else o = .finished d (.error failures)
  | other => o = other

/-- Go back after failures. -/
def attempt : Meaning S α := fun c o => ∃ middle, m (Cursor.mark c).2 middle ∧
  o = middle.move (Cursor.release · (Cursor.mark c).1) (Cursor.restore · (Cursor.mark c).1)

/-- Go back after a success. -/
def lookAhead : Meaning S α := fun c o => ∃ middle, m (Cursor.mark c).2 middle ∧
  o = middle.move (Cursor.restore · (Cursor.mark c).1) (Cursor.release · (Cursor.mark c).1)

/-- Rounds of a repetition, each of which yields a value and consumes something. -/
inductive Rounds (item : Meaning S (Option α)) : S → List α → S → Prop
  | none (c : S) : Rounds item c [] c
  | more {c d e : S} {value : α} {values : List α} (round : item c (.finished d (.ok (some value))))
      (moved : Cursor.position d ≠ Cursor.position c) (rest : Rounds item d values e) :
      Rounds item c (value :: values) e

/-- What is observed of the last round is what is observed of the repetition: the values of the rounds before
come first, and there are no further rounds if nothing was consumed. -/
def lastRound (origin : S) (values : List α) : Observed S (Option α) → Option (Observed S (List α))
  | .finished d (.ok none) => some (.finished d (.ok values))
  | .finished d (.ok (some value)) =>
    if Cursor.position d = Cursor.position origin then some (.finished d (.ok (values ++ [value])))
    else none
  | .finished d (.error failures) => some (.finished d (.error failures))
  | .stopped why => some (.stopped why)

/-- Rounds that consume something, and a last round, after values from before. -/
def collect (item : Meaning S (Option α)) (before : List α) : Meaning S (List α) := fun c o =>
  ∃ values d last, Rounds item c values d ∧ item d last ∧ lastRound d (before ++ values) last = some o

section

variable {m second : Meaning S α} {c d : S} {f : α → β}

omit [Cursor S] in
/-- A success with a changed value is a success with some value. -/
theorem map_ok_iff {value : β} :
    m.map f c (.finished d (.ok value)) ↔ ∃ found, m c (.finished d (.ok found)) ∧ f found = value := by
  constructor
  · rintro ⟨⟨d, failures | found⟩ | _, ran, ended⟩ <;> cases ended
    exact ⟨found, ran, rfl⟩
  · rintro ⟨found, ran, rfl⟩
    exact ⟨_, ran, rfl⟩

omit [Cursor S] in
/-- Failures are not changed with the value. -/
theorem map_error_iff {failures : Failures} :
    m.map f c (.finished d (.error failures)) ↔ m c (.finished d (.error failures)) := by
  constructor
  · rintro ⟨⟨d, failures | found⟩ | _, ran, ended⟩ <;> cases ended
    exact ran
  · intro ran
    exact ⟨_, ran, rfl⟩

omit [Cursor S] in
/-- Stops are not changed with the value. -/
theorem map_stopped_iff {why : Stop} : m.map f c (.stopped why) ↔ m c (.stopped why) := by
  constructor
  · rintro ⟨⟨d, failures | found⟩ | _, ran, ended⟩ <;> cases ended
    exact ran
  · intro ran
    exact ⟨_, ran, rfl⟩

/-- A run that fails and has consumed nothing, so that something else may be tried. -/
def Refuses (m : Meaning S α) (c d : S) (failures : Failures) : Prop :=
  m c (.finished d (.error failures)) ∧ Cursor.position d = Cursor.position c

/-- What refuses does so whatever would be made of its value. -/
theorem refuses_map_iff {failures : Failures} : (m.map f).Refuses c d failures ↔ m.Refuses c d failures :=
  and_congr_left fun _ => map_error_iff

/-- The second alternative is for where the first has refused. -/
theorem choice_of_refuses {failures : Failures} (refused : m.Refuses c d failures) {last : Observed S α}
    (ran : second d last) : m.choice second c (last.after failures) := by
  refine ⟨_, refused.1, ?_⟩
  dsimp only
  rw [if_pos refused.2]
  exact ⟨last, ran, rfl⟩

/-- Either the first alternative settles how a choice ends, or it has refused. -/
theorem choice_cases {o : Observed S α} (h : m.choice second c o) :
    (m c o ∧ ∀ d failures, o = .finished d (.error failures) → Cursor.position d ≠ Cursor.position c) ∨
      ∃ d failures last, m.Refuses c d failures ∧ second d last ∧ o = last.after failures := by
  obtain ⟨⟨d, failures | value⟩ | _, ran, rest⟩ := h
  · dsimp only at rest
    split at rest
    · next same =>
      obtain ⟨last, later, rfl⟩ := rest
      exact .inr ⟨d, failures, last, ⟨ran, same⟩, later, rfl⟩
    · next moved =>
      subst rest
      refine .inl ⟨ran, fun e later ended => ?_⟩
      cases ended
      exact moved
  · subst rest
    exact .inl ⟨ran, nofun⟩
  · subst rest
    exact .inl ⟨ran, nofun⟩

/-- A choice succeeds by its first part, or by its second where the first refuses. -/
theorem choice_ok_iff {value : α} :
    m.choice second c (.finished d (.ok value)) ↔ m c (.finished d (.ok value)) ∨
      ∃ e failures, m.Refuses c e failures ∧ second e (.finished d (.ok value)) := by
  constructor
  · intro h
    rcases choice_cases h with ⟨ran, -⟩ | ⟨e, failures, ⟨d, later | value⟩ | _, refused, ran, ended⟩
    · exact .inl ran
    all_goals cases ended
    exact .inr ⟨e, failures, refused, ran⟩
  · rintro (ran | ⟨e, failures, refused, ran⟩)
    · exact ⟨_, ran, rfl⟩
    · exact choice_of_refuses refused ran

/-- A choice fails if its first part fails having consumed something, or if both refuse in turn, with the
failures of both. -/
theorem choice_error_iff {failures : Failures} :
    m.choice second c (.finished d (.error failures)) ↔
      (m c (.finished d (.error failures)) ∧ Cursor.position d ≠ Cursor.position c) ∨
      ∃ e earlier later, m.Refuses c e earlier ∧ second e (.finished d (.error later)) ∧
        failures = earlier ++ later := by
  constructor
  · intro h
    rcases choice_cases h with ⟨ran, moved⟩ | ⟨e, earlier, ⟨d, later | value⟩ | _, refused, ran, ended⟩
    · exact .inl ⟨ran, moved d failures rfl⟩
    all_goals cases ended
    exact .inr ⟨e, earlier, later, refused, ran, rfl⟩
  · rintro (⟨ran, moved⟩ | ⟨e, earlier, later, refused, ran, rfl⟩)
    · exact ⟨_, ran, by dsimp only; rw [if_neg moved]⟩
    · exact choice_of_refuses refused ran

/-- A choice is stopped in its first part, or in its second where the first refuses. -/
theorem choice_stopped_iff {why : Stop} :
    m.choice second c (.stopped why) ↔
      m c (.stopped why) ∨ ∃ e failures, m.Refuses c e failures ∧ second e (.stopped why) := by
  constructor
  · intro h
    rcases choice_cases h with ⟨ran, -⟩ | ⟨e, failures, ⟨d, later | value⟩ | _, refused, ran, ended⟩
    · exact .inl ran
    all_goals cases ended
    exact .inr ⟨e, failures, refused, ran⟩
  · rintro (ran | ⟨e, failures, refused, ran⟩)
    · exact ⟨_, ran, rfl⟩
    · exact choice_of_refuses refused ran

end

end Meaning

/-- What is observed of how a run ended. -/
def Halt.observed : Halt S α → Observed S α
  | finished c result => .finished c result.toExcept
  | stopped why _ => .stopped why

/-- What can be observed of the runs of a parser. -/
def meaning (grammar : Grammar R) (parser : Parser R α) : Meaning S α := fun c o =>
  ∃ halt, parser.Yields grammar c halt ∧ halt.observed = o

variable {grammar : Grammar R} {c : S}

omit [Cursor S] in
/-- Failures that are put in front are observed in front. -/
theorem Halt.observed_after (failures : Failures) (halt : Halt S α) :
    (halt.after failures).observed = halt.observed.after failures := by
  cases halt with
  | finished c result =>
    cases result with
    | success value position => rfl
    | failure later => rfl
  | stopped why c => rfl

/-- What is observed of the runs from one cursor is always the same. -/
theorem meaning_unique {parser : Parser R α} {o other : Observed S α} (h : parser.meaning grammar c o)
    (h' : parser.meaning grammar c other) : o = other := by
  obtain ⟨halt, yields, rfl⟩ := h
  obtain ⟨halt', yields', rfl⟩ := h'
  rw [yields.unique yields']

/-- What is observed of a scan. -/
theorem meaning_scan {program : Scan α} {o : Observed S α} :
    (scan program).meaning grammar c o ↔
      o = match program.run c with
        | (.ok result, d) => .finished d result.toExcept
        | (.error why, _) => .stopped why := by
  simp only [meaning, yields_scan_iff, exists_eq_left]
  rcases program.run c with ⟨_ | result, d⟩
  · exact eq_comm
  · exact eq_comm

/-- To succeed at once means a success at once. -/
theorem meaning_unit (value : α) : (unit value).meaning (S := S) grammar = .unit value := by
  funext c o
  exact propext meaning_scan

/-- A sequence means the sequence of the meanings. -/
theorem meaning_bind (first : Parser R α) (next : α → Parser R β) :
    (bind first next).meaning (S := S) grammar =
      (first.meaning grammar).bind fun value => (next value).meaning grammar := by
  funext c o
  apply propext
  constructor
  · rintro ⟨halt, yields, rfl⟩
    obtain ⟨halt', first, rest⟩ := yields_bind_iff.1 yields
    refine ⟨halt'.observed, ⟨halt', first, rfl⟩, ?_⟩
    rcases halt' with ⟨d, value | failures⟩ | ⟨why, d⟩
    · exact ⟨halt, rest, rfl⟩
    · rw [← rest]
      rfl
    · rw [← rest]
      rfl
  · rintro ⟨middle, ⟨halt', first, rfl⟩, rest⟩
    rcases halt' with ⟨d, value | failures⟩ | ⟨why, d⟩
    · obtain ⟨halt, yields, rfl⟩ := rest
      exact ⟨halt, yields_bind_iff.2 ⟨_, first, yields⟩, rfl⟩
    · exact ⟨_, yields_bind_iff.2 ⟨_, first, rfl⟩, rest.symm⟩
    · exact ⟨_, yields_bind_iff.2 ⟨_, first, rfl⟩, rest.symm⟩

/-- If each end of a run is made from an end of the run of a part, and is observed to be, then so is
everything that can be observed. -/
theorem meaning_iff_of_yields_iff {parser : Parser R β} {part : Parser R α} {c d : S}
    {f : Halt S α → Halt S β} {g : Observed S α → Observed S β}
    (law : ∀ halt, parser.Yields grammar c halt ↔ ∃ halt', part.Yields grammar d halt' ∧ f halt' = halt)
    (observed : ∀ halt, (f halt).observed = g halt.observed) (o : Observed S β) :
    parser.meaning grammar c o ↔ ∃ middle, part.meaning grammar d middle ∧ o = g middle := by
  constructor
  · rintro ⟨halt, yields, rfl⟩
    obtain ⟨halt', part, rfl⟩ := (law halt).1 yields
    exact ⟨halt'.observed, ⟨halt', part, rfl⟩, observed halt'⟩
  · rintro ⟨middle, ⟨halt', part, rfl⟩, rfl⟩
    exact ⟨f halt', (law _).2 ⟨halt', part, rfl⟩, observed halt'⟩

/-- Change the value with which a run ended. -/
def Halt.map (f : α → β) : Halt S α → Halt S β
  | finished c result => finished c (result.map f)
  | stopped why c => stopped why c

/-- Move the cursor with which a run ended, in one way after a success and in another after failures. -/
def Halt.move (success failure : S → S) : Halt S α → Halt S α
  | finished c (.success value position) => finished (success c) (.success value position)
  | finished c (.failure failures) => finished (failure c) (.failure failures)
  | stopped why c => stopped why c

omit [Cursor S] in
/-- A value can be changed before it is observed or after. -/
theorem Halt.observed_map (f : α → β) (halt : Halt S α) :
    (halt.map f).observed = halt.observed.map f := by
  cases halt with
  | finished c result => cases result <;> rfl
  | stopped why c => rfl

omit [Cursor S] in
/-- A cursor can be moved before it is observed or after. -/
theorem Halt.observed_move (success failure : S → S) (halt : Halt S α) :
    (halt.move success failure).observed = halt.observed.move success failure := by
  cases halt with
  | finished c result => cases result <;> rfl
  | stopped why c => rfl

/-- A change of the value changes the meaning in the same way. -/
theorem meaning_map (f : α → β) (parser : Parser R α) :
    (map f parser).meaning (S := S) grammar = (parser.meaning grammar).map f := by
  funext c o
  apply propext
  apply meaning_iff_of_yields_iff (f := Halt.map f) _ (Halt.observed_map f)
  intro halt
  rw [yields_map_iff]
  apply exists_congr
  intro halt'
  cases halt' <;> rfl

/-- Alternatives mean the choice between the meanings. -/
theorem meaning_choice (first second : Parser R α) :
    (choice first second).meaning (S := S) grammar =
      (first.meaning grammar).choice (second.meaning grammar) := by
  funext c o
  apply propext
  constructor
  · rintro ⟨halt, yields, rfl⟩
    obtain ⟨halt', first, rest⟩ := yields_choice_iff.1 yields
    refine ⟨halt'.observed, ⟨halt', first, rfl⟩, ?_⟩
    rcases halt' with ⟨d, value | failures⟩ | ⟨why, d⟩
    · rw [← rest]
      rfl
    · dsimp only [Halt.observed, Result.toExcept] at rest ⊢
      split at rest
      · next same =>
        obtain ⟨last, second, rfl⟩ := rest
        rw [if_pos same]
        exact ⟨last.observed, ⟨last, second, rfl⟩, Halt.observed_after failures last⟩
      · next moved =>
        rw [if_neg moved, ← rest]
    · rw [← rest]
      rfl
  · rintro ⟨middle, ⟨halt', first, rfl⟩, rest⟩
    rcases halt' with ⟨d, value | failures⟩ | ⟨why, d⟩
    · exact ⟨_, yields_choice_iff.2 ⟨_, first, rfl⟩, rest.symm⟩
    · dsimp only [Halt.observed, Result.toExcept] at rest
      split at rest
      · next same =>
        obtain ⟨-, ⟨last, second, rfl⟩, rfl⟩ := rest
        refine ⟨last.after failures, yields_choice_iff.2 ⟨_, first, ?_⟩,
          Halt.observed_after failures last⟩
        dsimp only
        rw [if_pos same]
        exact ⟨last, second, rfl⟩
      · next moved =>
        refine ⟨.finished d (.failure failures), yields_choice_iff.2 ⟨_, first, ?_⟩, rest.symm⟩
        dsimp only
        rw [if_neg moved]
    · exact ⟨_, yields_choice_iff.2 ⟨_, first, rfl⟩, rest.symm⟩

/-- An attempt means an attempt at the meaning. -/
theorem meaning_attempt (parser : Parser R α) :
    (attempt parser).meaning (S := S) grammar = (parser.meaning grammar).attempt := by
  funext c o
  apply propext
  apply meaning_iff_of_yields_iff (f := Halt.move _ _) _ (Halt.observed_move _ _)
  intro halt
  rw [yields_attempt_iff]
  apply exists_congr
  rintro (⟨d, value | failures⟩ | d) <;> rfl

/-- A look-ahead means a look-ahead at the meaning. -/
theorem meaning_lookAhead (parser : Parser R α) :
    (lookAhead parser).meaning (S := S) grammar = (parser.meaning grammar).lookAhead := by
  funext c o
  apply propext
  apply meaning_iff_of_yields_iff (f := Halt.move _ _) _ (Halt.observed_move _ _)
  intro halt
  rw [yields_lookAhead_iff]
  apply exists_congr
  rintro (⟨d, value | failures⟩ | d) <;> rfl

/-- A rule means what it stands for. -/
theorem meaning_call (rule : R α) :
    (call rule).meaning (S := S) grammar = (grammar α rule).meaning grammar := by
  funext c o
  simp only [meaning, yields_call_iff]

/-- A repetition starts with a round, and may be over then. -/
theorem meaning_collect_of_round {item : Parser R (Option α)} {newestFirst : List α}
    {last : Observed S (Option α)} {o : Observed S (List α)} (round : item.meaning grammar c last)
    (closes : Meaning.lastRound c newestFirst.reverse last = some o) :
    (collect item newestFirst).meaning grammar c o := by
  obtain ⟨halt, yields, rfl⟩ := round
  rcases halt with ⟨d, ⟨_ | value, position⟩ | failures⟩ | ⟨why, d⟩
  · cases closes
    exact ⟨_, yields_collect_iff.2 ⟨_, yields, rfl⟩, rfl⟩
  · dsimp only [Halt.observed, Result.toExcept, Meaning.lastRound] at closes
    split at closes
    · next same =>
      cases closes
      rw [← List.reverse_cons]
      refine ⟨.finished d (.success _ (Cursor.position d)), yields_collect_iff.2 ⟨_, yields, ?_⟩, rfl⟩
      dsimp only
      rw [if_pos same]
    · cases closes
  · cases closes
    exact ⟨_, yields_collect_iff.2 ⟨_, yields, rfl⟩, rfl⟩
  · cases closes
    exact ⟨_, yields_collect_iff.2 ⟨_, yields, rfl⟩, rfl⟩

/-- A repetition goes on after a round that consumed something. -/
theorem meaning_collect_of_more {item : Parser R (Option α)} {newestFirst : List α} {d : S} {value : α}
    {o : Observed S (List α)} (round : item.meaning grammar c (.finished d (.ok (some value))))
    (moved : Cursor.position d ≠ Cursor.position c)
    (rest : (collect item (value :: newestFirst)).meaning grammar d o) :
    (collect item newestFirst).meaning grammar c o := by
  obtain ⟨halt', yields', rfl⟩ := rest
  obtain ⟨halt, yields, observed⟩ := round
  rcases halt with ⟨e, ⟨_ | other, position⟩ | failures⟩ | ⟨why, e⟩ <;> cases observed
  refine ⟨halt', yields_collect_iff.2 ⟨_, yields, ?_⟩, rfl⟩
  dsimp only
  rw [if_neg moved]
  exact yields'

/-- What direct evaluation of a repetition finds comes about in rounds. -/
theorem collect_of_evaluate {depth : Nat} {item : Parser R (Option α)} {newestFirst : List α}
    {halt : Halt S (List α)} (found : evaluate grammar depth (collect item newestFirst) c = some halt) :
    (item.meaning grammar).collect newestFirst.reverse c halt.observed := by
  induction depth generalizing c newestFirst with
  | zero => cases found
  | succ depth ih =>
    obtain ⟨first, hfirst, hhalt⟩ := Option.bind_eq_some_iff.1 found
    have round : item.meaning grammar c first.observed := ⟨first, yields_of_evaluate hfirst, rfl⟩
    have closes (h : Meaning.lastRound c newestFirst.reverse first.observed = some halt.observed) :
        (item.meaning grammar).collect newestFirst.reverse c halt.observed := by
      refine ⟨[], c, _, .none c, round, ?_⟩
      rwa [List.append_nil]
    rcases first with ⟨d, ⟨_ | value, position⟩ | failures⟩ | ⟨why, d⟩
    · cases hhalt
      exact closes rfl
    · dsimp only [Halt.andThen] at hhalt
      split at hhalt
      · next same =>
        cases hhalt
        apply closes
        dsimp only [Halt.observed, Result.toExcept, Meaning.lastRound]
        rw [if_pos same, List.reverse_cons]
      · next moved =>
        obtain ⟨values, e, last, rounds, final, ended⟩ := ih hhalt
        refine ⟨value :: values, e, last, .more round moved rounds, final, ?_⟩
        rwa [List.reverse_cons, List.append_assoc] at ended
    · cases hhalt
      exact closes rfl
    · cases hhalt
      exact closes rfl

/-- A repetition means the repetition of the meaning. -/
theorem meaning_collect (item : Parser R (Option α)) (newestFirst : List α) :
    (collect item newestFirst).meaning (S := S) grammar =
      (item.meaning grammar).collect newestFirst.reverse := by
  funext c o
  apply propext
  constructor
  · rintro ⟨halt, yields, rfl⟩
    obtain ⟨depth, found⟩ := yields_iff_evaluate.1 yields
    exact collect_of_evaluate found
  · rintro ⟨values, d, last, rounds, final, ended⟩
    induction rounds generalizing newestFirst with
    | none c =>
      rw [List.append_nil] at ended
      exact meaning_collect_of_round final ended
    | more round moved rest ih =>
      apply meaning_collect_of_more round moved
      apply ih _ final
      rwa [List.reverse_cons, List.append_assoc]

end Parsing.Parser
