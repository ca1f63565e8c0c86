import Parsing.Proofs.Parser.Repetition

/-!
# Repetitions that never fail

`many` and `separatedBy` only attempt to apply their parsers. An application that fails is taken back, ends
the repetition, and is not reported. So they do not fail, whatever they are made of, and leave the cursor
where the last application that counts has left it: an application counts if its value is among the values
collected. All this rests on the cursor going back to a mark when it is told to.
-/

namespace Parsing

/-- Nothing that a parser does changes the document of a text cursor. -/
theorem TextCursor.keeps_document (text : String) :
    Cursor.Keeps TextCursor fun c => c.document = text where
  peek _ h := h
  read c h := by
    change c.read.2.document = text
    rw [TextCursor.read]
    split
    · exact h
    · exact h
  mark _ h := h
  restore _ _ h := h
  release _ _ h := h

namespace Parser

variable {R : Type → Type} {S : Type} [Cursor S] {α β : Type} {grammar : Grammar R}

namespace Meaning

/-- Successful applications one after the other, with their values: one of the first, then others of the
later. There may be none. -/
inductive Applications : Meaning S α → Meaning S α → S → List α → S → Prop
  | none {first later : Meaning S α} (c : S) : Applications first later c [] c
  | more {first later : Meaning S α} {c d e : S} {value : α} {values : List α}
      (applied : first c (.finished d (.ok value))) (rest : Applications later later d values e) :
      Applications first later c (value :: values) e

/-- What is observed is either that the run was stopped, or a success with the values of successful
applications, the cursor being back where the last of these has left it. -/
def Gathers (m : Meaning S (List α)) (first later : Meaning S α) (back : S → S → Prop) (c : S) : Prop :=
  ∀ o, m c o → (∃ why, o = .stopped why) ∨ ∃ d e values, o = .finished d (.ok values) ∧
    Applications first later c values e ∧ back d e

/-- The value, or else nothing and no consumption. -/
def tryItem (m : Meaning S α) : Meaning S (Option α) := (m.attempt.map some).choice (unit none)

/-- An attempt that succeeds leaves the cursor fit for another one, and an attempt that fails brings it
back. -/
structure GoesBack (m : Meaning S α) (fit : S → Prop) (back : S → S → Prop) : Prop where
  success : ∀ {c d value}, fit c → m.attempt c (.finished d (.ok value)) → fit d
  failure : ∀ {c d failures}, fit c → m.attempt c (.finished d (.error failures)) →
    Cursor.position d = Cursor.position c ∧ back d c

/-- The value can be changed before an attempt or after it. -/
theorem attempt_map (m : Meaning S α) (f : α → β) : (m.map f).attempt = m.attempt.map f := by
  funext c o
  apply propext
  have moves (middle : Observed S α) (success failure : S → S) :
      (middle.map f).move success failure = (middle.move success failure).map f := by
    rcases middle with ⟨d, failures | value⟩ | _ <;> rfl
  constructor
  · rintro ⟨-, ⟨middle, inside, rfl⟩, rfl⟩
    exact ⟨_, ⟨middle, inside, rfl⟩, moves middle _ _⟩
  · rintro ⟨-, ⟨middle, inside, rfl⟩, rfl⟩
    exact ⟨_, ⟨middle, inside, rfl⟩, (moves middle _ _).symm⟩

variable {m : Meaning S α} {fit : S → Prop} {back : S → S → Prop} {c : S}

/-- An item is a value, or else nothing and the cursor is back. It never fails. -/
theorem GoesBack.tryItem_cases (h : m.GoesBack fit back) (hc : fit c) {o : Observed S (Option α)}
    (found : m.tryItem c o) :
    (∃ why, o = .stopped why) ∨
      (∃ d value, o = .finished d (.ok (some value)) ∧ m.attempt c (.finished d (.ok value))) ∨
      ∃ d, o = .finished d (.ok none) ∧ back d c := by
  obtain ⟨-, ⟨middle, tried, rfl⟩, rest⟩ := found
  rcases middle with ⟨d, failures | value⟩ | _
  · obtain ⟨same, returned⟩ := h.failure hc tried
    dsimp only [Observed.map, Except.map] at rest
    rw [if_pos same] at rest
    obtain ⟨-, rfl, rfl⟩ := rest
    exact .inr (.inr ⟨d, rfl, returned⟩)
  · exact .inr (.inl ⟨d, value, rest, tried⟩)
  · exact .inl ⟨_, rest⟩

/-- Rounds of a repetition are successful applications, and leave the cursor fit. -/
theorem GoesBack.rounds (h : m.GoesBack fit back) {d : S} {values : List α}
    (rounds : Rounds m.tryItem c values d) (hc : fit c) :
    fit d ∧ ∀ more e, Applications m.attempt m.attempt d more e →
      Applications m.attempt m.attempt c (values ++ more) e := by
  induction rounds with
  | none c => exact ⟨hc, fun more e rest => rest⟩
  | more round moved later ih =>
    rcases h.tryItem_cases hc round with ⟨why, gone⟩ | ⟨d, value, ended, applied⟩ | ⟨d, ended, -⟩
    · cases gone
    · cases ended
      obtain ⟨hd, applications⟩ := ih (h.success hc applied)
      exact ⟨hd, fun more e rest => .more applied (applications more e rest)⟩
    · cases ended

/-- A repetition of attempts gathers what the attempts yield. -/
theorem GoesBack.collect (h : m.GoesBack fit back) (stays : ∀ d, back d d) (hc : fit c) :
    (m.tryItem.collect []).Gathers m.attempt m.attempt back c := by
  rintro o ⟨values, d, last, rounds, final, ended⟩
  obtain ⟨hd, applications⟩ := h.rounds rounds hc
  rcases h.tryItem_cases hd final with ⟨why, rfl⟩ | ⟨e, value, rfl, applied⟩ | ⟨e, rfl, returned⟩
  · cases ended
    exact .inl ⟨why, rfl⟩
  · dsimp only [lastRound] at ended
    split at ended
    · cases ended
      exact .inr ⟨e, e, _, rfl, applications [value] e (.more applied (.none e)), stays e⟩
    · cases ended
  · cases ended
    rw [← List.append_nil values]
    exact .inr ⟨e, d, _, rfl, applications [] d (.none d), returned⟩

/-- An attempt and then, if it succeeds, a repetition of attempts, gathers what the attempts yield. -/
theorem GoesBack.bind_collect {later : Meaning S α} (h : m.GoesBack fit back)
    (h' : later.GoesBack fit back) (stays : ∀ d, back d d) (hc : fit c) :
    (m.tryItem.bind fun
      | .none => unit []
      | .some value => (later.tryItem.collect []).map (value :: ·)).Gathers m.attempt later.attempt back c := by
  rintro o ⟨middle, first, rest⟩
  rcases h.tryItem_cases hc first with ⟨why, rfl⟩ | ⟨d, value, rfl, applied⟩ | ⟨d, rfl, returned⟩
  · exact .inl ⟨why, rest⟩
  · obtain ⟨part, more, rfl⟩ := rest
    have gathers := h'.collect stays (h.success hc applied) part more
    rcases gathers with ⟨why, rfl⟩ | ⟨e, f, values, rfl, applications, returned⟩
    · exact .inl ⟨why, rfl⟩
    · exact .inr ⟨e, f, _, rfl, .more applied applications, returned⟩
  · exact .inr ⟨d, c, [], rest, .none c, returned⟩

end Meaning

/-- An item that may be missing means what it should. -/
theorem meaning_tryItem (parser : Parser R α) :
    (tryItem parser).meaning (S := S) grammar = (parser.meaning grammar).tryItem := by
  rw [tryItem, meaning_choice, meaning_attempt, meaning_map, meaning_unit, Meaning.attempt_map]
  rfl

/-- What is observed of a run that finished comes from such a run. -/
theorem exists_finishes_of_meaning {parser : Parser R α} {c d : S} {outcome : Except Failures α}
    (h : parser.meaning grammar c (.finished d outcome)) :
    ∃ result, Finishes grammar parser c d result ∧ result.toExcept = outcome := by
  obtain ⟨⟨e, result⟩ | e, yields, observed⟩ := h
  · cases observed
    exact ⟨result, yields.finishes, rfl⟩
  · cases observed

/-- On a cursor that honours its marks an attempt that fails goes back to the place where it began. -/
theorem goesBack_of_honours {opens : S → List (Cursor.Point S × Nat) → Prop}
    (honours : Cursor.Honours S opens) (marks : List (Cursor.Point S × Nat)) (parser : Parser R α) :
    (parser.meaning grammar).GoesBack (opens · marks)
      fun d e => Cursor.position d = Cursor.position e where
  success {c d value} hc tried := by
    rw [← meaning_attempt] at tried
    obtain ⟨result, run, -⟩ := exists_finishes_of_meaning tried
    exact (honours.finishes run hc).1
  failure {c d failures} hc tried := by
    obtain ⟨⟨e, failures | value⟩ | _, inside, ended⟩ := tried <;> cases ended
    obtain ⟨result, run, -⟩ := exists_finishes_of_meaning inside
    have back := honours.position_restore run hc
    exact ⟨back, back⟩

/-- Behind a run a text cursor goes back to exactly what it was: its document stays the same. -/
theorem restore_text {parser : Parser R α} {c d : TextCursor} {result : Result α}
    (ran : parser.Yields grammar c (.finished d result)) : Cursor.restore d (Cursor.mark c).1 = c := by
  obtain ⟨budget, ran⟩ := ran
  have kept : d.document = c.document := (TextCursor.keeps_document c.document).run ran rfl
  exact congrArg (TextCursor.mk · c.rest c.offset c.position) kept

/-- So attempts on a text go back exactly. -/
theorem goesBack_text (parser : Parser R α) :
    (parser.meaning (S := TextCursor) grammar).GoesBack (fun _ => True) Eq where
  success _ _ := trivial
  failure {c d failures} _ tried := by
    obtain ⟨⟨e, failures | value⟩ | _, ⟨⟨f, value | failures⟩ | ⟨why, f⟩, ran, observed⟩, ended⟩ := tried <;>
      cases ended <;> cases observed
    have returned := restore_text ran
    exact ⟨congrArg TextCursor.position returned, returned⟩

/-- `many` gathers the values of its parser as long as attempts go back. -/
theorem many_gathers {parser : Parser R α} {fit : S → Prop} {back : S → S → Prop} {c : S}
    (h : (parser.meaning grammar).GoesBack fit back) (stays : ∀ d, back d d) (hc : fit c) :
    (parser.many.meaning grammar).Gathers ((attempt parser).meaning grammar)
      ((attempt parser).meaning grammar) back c := by
  rw [many, meaning_collect, meaning_tryItem, meaning_attempt]
  exact h.collect stays hc

/-- `separatedBy` gathers the values of its parser, each but the first behind a separator, as long as attempts
go back. -/
theorem separatedBy_gathers {parser : Parser R α} {separator : Parser R β} {fit : S → Prop}
    {back : S → S → Prop} {c : S} (h : (parser.meaning grammar).GoesBack fit back)
    (h' : ((chain separator parser).meaning grammar).GoesBack fit back) (stays : ∀ d, back d d)
    (hc : fit c) :
    ((parser.separatedBy separator).meaning grammar).Gathers ((attempt parser).meaning grammar)
      ((attempt (chain separator parser)).meaning grammar) back c := by
  rw [separatedBy, meaning_bind, meaning_tryItem, meaning_attempt, meaning_attempt]
  rintro o ⟨middle, first, rest⟩
  apply h.bind_collect h' stays hc
  refine ⟨middle, first, ?_⟩
  rcases middle with ⟨d, failures | _ | value⟩ | _
  · exact rest
  · dsimp only at rest ⊢
    rwa [meaning_unit] at rest
  · dsimp only at rest ⊢
    rwa [meaning_collect, meaning_tryItem, Meaning.collect_eq_map] at rest
  · exact rest

/-- The repetitions are what recursion would make them, on every cursor.

* `many` is one attempt at the parser, and then `many` again unless the attempt failed or consumed nothing.
  It is also equivalent to a rule that is made in this way and refers to itself.
* `many1` is the parser and then `many`, and `separatedBy` is an attempt at the parser and then `many` of the
  parser behind the separator.
* `manyTill` is one round with the delimiter tried first, and then `manyTill` again. It fails exactly if a
  round fails, with the failures of that round alone.
* To repeat a number of times is to repeat part of these times and then the rest, as long as there is room
  for the values of all of them. If there is not then nothing is run, whatever the parser is: the run stops
  for want of room.
* `many` and `separatedBy` never fail as long as the cursor honours its marks. The values are those of
  successful applications, and the cursor is left where the last of these has left it. A text cursor is left
  exactly as it was then. -/
theorem repetitions_are_recursive (grammar : Grammar R) (S : Type) [Cursor S] (parser : Parser R α)
    (separator : Parser R β) :
    Equivalent grammar S parser.many (roundThen (tryItem parser) parser.many) ∧
    (∀ rule, grammar (List α) rule = roundThen (tryItem parser) (call rule) →
      Equivalent grammar S parser.many (call rule)) ∧
    Equivalent grammar S parser.many1 (bind parser fun value => map (value :: ·) parser.many) ∧
    Equivalent grammar S (parser.separatedBy separator)
      (bind (tryItem parser) fun
        | none => unit []
        | some value => map (value :: ·) (many (chain separator parser))) ∧
    Equivalent grammar S (parser.manyTill separator)
      (roundThen (tillItem parser separator) (parser.manyTill separator)) ∧
    (∀ rule, grammar (List α) rule = roundThen (tillItem parser separator) (call rule) →
      Equivalent grammar S (parser.manyTill separator) (call rule)) ∧
    (∀ (c d : S) (failures : Failures),
      (parser.manyTill separator).meaning grammar c (.finished d (.error failures)) ↔
        ∃ values e, ((tillItem parser separator).meaning grammar).Rounds c values e ∧
          (tillItem parser separator).meaning grammar e (.finished d (.error failures))) ∧
    (∀ size, Equivalent grammar S (parser.replicate size 0) (unit [])) ∧
    (∀ size ≤ maxRoom, Equivalent grammar S (parser.replicate size 1) (map (fun value => [value]) parser)) ∧
    (∀ size count more, (count + more) * size ≤ maxRoom →
      Equivalent grammar S (parser.replicate size (count + more))
        (bind (parser.replicate size count) fun values =>
          map (values ++ ·) (parser.replicate size more))) ∧
    (∀ size count, maxRoom < count * size →
      Equivalent grammar S (parser.replicate size count) (scan (.stop .overflow))) ∧
    (∀ opens, Cursor.Honours S opens → ∀ c marks, opens c marks →
      (parser.many.meaning grammar).Gathers ((attempt parser).meaning grammar)
        ((attempt parser).meaning grammar) (fun d e => Cursor.position d = Cursor.position e) c ∧
      ((parser.separatedBy separator).meaning grammar).Gathers ((attempt parser).meaning grammar)
        ((attempt (chain separator parser)).meaning grammar)
        (fun d e => Cursor.position d = Cursor.position e) c) ∧
    (∀ c : TextCursor,
      (parser.many.meaning grammar).Gathers ((attempt parser).meaning grammar)
        ((attempt parser).meaning grammar) Eq c ∧
      ((parser.separatedBy separator).meaning grammar).Gathers ((attempt parser).meaning grammar)
        ((attempt (chain separator parser)).meaning grammar) Eq c) := by
  refine ⟨?_, ?_, ?_, ?_, ?_, ?_, ?_, ?_, ?_, ?_, ?_, ?_, ?_⟩
  · exact collect_equivalent_roundThen _
  · exact fun rule made => collect_equivalent_call made
  · exact many1_equivalent parser
  · exact separatedBy_equivalent parser separator
  · exact collect_equivalent_roundThen _
  · exact fun rule made => collect_equivalent_call made
  · exact fun c d failures => meaning_collect_error_iff
  · intro size
    rw [replicate_zero]
  · exact fun size fits => replicate_one_equivalent fits parser
  · exact fun size count more fits => replicate_add_equivalent fits parser
  · intro size count lacks
    rw [replicate_of_lacks lacks]
  · intro opens honours c marks h
    have goesBack (other : Parser R α) : (other.meaning grammar).GoesBack (opens · marks)
        fun d e => Cursor.position d = Cursor.position e := goesBack_of_honours honours marks other
    exact ⟨many_gathers (goesBack parser) (fun _ => rfl) h,
      separatedBy_gathers (goesBack parser) (goesBack (chain separator parser)) (fun _ => rfl) h⟩
  · intro c
    exact ⟨many_gathers (goesBack_text parser) (fun _ => rfl) trivial,
      separatedBy_gathers (goesBack_text parser) (goesBack_text _) (fun _ => rfl) trivial⟩

/-- The rule of a grammar that does nothing but repeat. -/
inductive RepeatRule (α : Type) : Type → Type where
  | again : RepeatRule α (List α)

/-- The grammar that repeats an item by recursion. -/
def repeating (item : Parser (RepeatRule α) (Option α)) : Grammar (RepeatRule α) :=
  fun _ rule => match rule with
    | .again => roundThen item (call .again)

/-- Letters with and without separators on a text and on bytes, `many` of them also as recursion. A parser that
fails is repeated once and then four times with room for five texts, but not for as many as can be counted. -/
theorem repetitions_are_recursive_letters :
    Equivalent (repeating (tryItem (literal "a"))) ByteCursor (many (literal "a")) (call .again) ∧
    Equivalent (repeating (tillItem (literal "a") (literal "b"))) TextCursor
      (manyTill (literal "a") (literal "b")) (call .again) ∧
    ((separatedBy (literal "a") (literal ",")).meaning Grammar.empty).Gathers
      ((attempt (literal "a")).meaning Grammar.empty)
      ((attempt (chain (literal ",") (literal "a"))).meaning Grammar.empty)
      (fun d e => Cursor.position d = Cursor.position e) (ByteCursor.ofText "a,a,") ∧
    Equivalent Grammar.empty TextCursor (replicate 24 (fail "x" : Parser NoRule String) (1 + 4))
      (bind (replicate 24 (fail "x") 1) fun values => map (values ++ ·) (replicate 24 (fail "x") 4)) ∧
    Equivalent Grammar.empty TextCursor (replicate 24 (fail "x" : Parser NoRule String) 1)
      (map (fun value => [value]) (fail "x")) ∧
    Equivalent Grammar.empty TextCursor
      (replicate 24 (fail "x" : Parser NoRule String) 18446744073709551615) (scan (.stop .overflow)) := by
  obtain ⟨-, again, -⟩ := repetitions_are_recursive (repeating (tryItem (literal "a"))) ByteCursor
    (literal "a") (literal ",")
  obtain ⟨-, -, -, -, -, till, -⟩ := repetitions_are_recursive
    (repeating (tillItem (literal "a") (literal "b"))) TextCursor (literal "a") (literal "b")
  obtain ⟨-, -, -, -, -, -, -, -, -, -, -, gathers, -⟩ := repetitions_are_recursive Grammar.empty ByteCursor
    (literal "a") (literal ",")
  obtain ⟨-, -, -, -, -, -, -, -, once, add, lacks, -, -⟩ := repetitions_are_recursive Grammar.empty TextCursor
    (fail "x" : Parser NoRule String) (literal ",")
  obtain ⟨-, separated⟩ := gathers _ ByteCursor.honours (ByteCursor.ofText "a,a,") [] (List.forall_mem_nil _)
  exact ⟨again .again rfl, till .again rfl, separated, add 24 1 4 (by decide), once 24 (by decide),
    lacks 24 18446744073709551615 (by decide)⟩

end Parser

end Parsing
