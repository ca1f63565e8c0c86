import Parsing.Proofs.Parser.Deciding
import Parsing.Proofs.Parser.Repetition

/-!
# Repetitions up to a delimiter

`manyTill` tries the delimiter first, and applies the item only where the delimiter has failed without
consuming anything. So before each value the delimiter has failed, and if it matches in the end then the
cursor is left where the delimiter has left it.

The loop is the one of all repetitions, and stops as well when an item has consumed nothing. It then succeeds
although the delimiter has not matched. If this never happens, to succeed is to match the delimiter.
-/

namespace Parsing.Parser

variable {R : Type → Type} {S : Type} {α β : Type} {grammar : Grammar R}

namespace Meaning

variable [Cursor S]

/-- Items one after the other, with their values. Each of them consumes something, and the delimiter has been
tried and has refused before. -/
inductive Items (item : Meaning S α) (delimiter : Meaning S β) : S → List α → S → Prop
  | none (c : S) : Items item delimiter c [] c
  | more {c d e f : S} {failures : Failures} {value : α} {values : List α}
      (refused : delimiter.Refuses c d failures) (matched : item d (.finished e (.ok value)))
      (moved : Cursor.position e ≠ Cursor.position c) (rest : Items item delimiter e values f) :
      Items item delimiter c (value :: values) f

end Meaning

section

variable [Cursor S] {item : Parser R α} {delimiter : Parser R β} {c d : S}

/-- A round yields nothing if the delimiter matches. -/
theorem tillItem_none_iff :
    (tillItem item delimiter).meaning grammar c (.finished d (.ok none)) ↔
      ∃ found, delimiter.meaning grammar c (.finished d (.ok found)) := by
  simp only [tillItem, meaning_choice, meaning_map, Meaning.choice_ok_iff, Meaning.map_ok_iff, reduceCtorEq,
    and_true, and_false, exists_false, or_false]

/-- A round yields the value of the item where the delimiter has refused. -/
theorem tillItem_some_iff {value : α} :
    (tillItem item delimiter).meaning grammar c (.finished d (.ok (some value))) ↔
      ∃ e failures, (delimiter.meaning grammar).Refuses c e failures ∧
        item.meaning grammar e (.finished d (.ok value)) := by
  simp only [tillItem, meaning_choice, meaning_map, Meaning.choice_ok_iff, Meaning.map_ok_iff,
    Meaning.refuses_map_iff, reduceCtorEq, Option.some.injEq, and_false, exists_false, false_or, exists_eq_right]

/-- A round fails if the delimiter has consumed something before it fails, or if neither of the two matches. -/
theorem tillItem_error_iff {failures : Failures} :
    (tillItem item delimiter).meaning grammar c (.finished d (.error failures)) ↔
      (delimiter.meaning grammar c (.finished d (.error failures)) ∧ Cursor.position d ≠ Cursor.position c) ∨
      ∃ e first later, (delimiter.meaning grammar).Refuses c e first ∧
        item.meaning grammar e (.finished d (.error later)) ∧ failures = first ++ later := by
  simp only [tillItem, meaning_choice, meaning_map, Meaning.choice_error_iff, Meaning.map_error_iff,
    Meaning.refuses_map_iff]

/-- An item is stopped in the delimiter, or in the parser where the delimiter refuses. -/
theorem tillItem_stopped_iff {why : Stop} :
    (tillItem item delimiter).meaning grammar c (.stopped why) ↔ delimiter.meaning grammar c (.stopped why) ∨
      ∃ e failures, (delimiter.meaning grammar).Refuses c e failures ∧ item.meaning grammar e (.stopped why) := by
  simp only [tillItem, meaning_choice, meaning_map, Meaning.choice_stopped_iff, Meaning.map_stopped_iff,
    Meaning.refuses_map_iff]

/-- The rounds of the loop are items before each of which the delimiter has refused. -/
theorem rounds_tillItem_iff {values : List α} :
    ((tillItem item delimiter).meaning grammar).Rounds c values d ↔
      (item.meaning grammar).Items (delimiter.meaning grammar) c values d := by
  constructor
  · intro rounds
    induction rounds with
    | none c => exact .none c
    | more round moved rest ih =>
      obtain ⟨e, failures, refused, matched⟩ := tillItem_some_iff.1 round
      exact .more refused matched moved ih
  · intro items
    induction items with
    | none c => exact .none c
    | more refused matched moved rest ih =>
      exact .more (tillItem_some_iff.2 ⟨_, _, refused, matched⟩) moved ih

/-- The loop repeats rounds in which the delimiter comes first. -/
theorem manyTill_eq_collect (item : Parser R α) (delimiter : Parser R β) :
    item.manyTill delimiter = collect (tillItem item delimiter) [] :=
  rfl

/-- A repetition up to a delimiter succeeds behind its items if the delimiter matches there, or if the delimiter
refuses and a last item consumes nothing. -/
theorem manyTill_ok_iff {values : List α} :
    (item.manyTill delimiter).meaning grammar c (.finished d (.ok values)) ↔
      (∃ e found, (item.meaning grammar).Items (delimiter.meaning grammar) c values e ∧
        delimiter.meaning grammar e (.finished d (.ok found))) ∨
      ∃ before last e f failures, values = before ++ [last] ∧
        (item.meaning grammar).Items (delimiter.meaning grammar) c before e ∧
        (delimiter.meaning grammar).Refuses e f failures ∧
        item.meaning grammar f (.finished d (.ok last)) ∧ Cursor.position d = Cursor.position e := by
  rw [manyTill_eq_collect, meaning_collect_ok_iff]
  apply or_congr
  · apply exists_congr
    intro e
    rw [rounds_tillItem_iff, tillItem_none_iff, exists_and_left]
  · apply exists₃_congr
    intro before last e
    rw [rounds_tillItem_iff, tillItem_some_iff]
    constructor
    · rintro ⟨rfl, items, ⟨f, failures, refused, matched⟩, same⟩
      exact ⟨f, failures, rfl, items, refused, matched, same⟩
    · rintro ⟨f, failures, rfl, items, refused, matched, same⟩
      exact ⟨rfl, items, ⟨f, failures, refused, matched⟩, same⟩

/-- A repetition up to a delimiter fails behind its items as the delimiter does that has consumed something, or
if neither the delimiter nor the item matches. -/
theorem manyTill_error_iff {failures : Failures} :
    (item.manyTill delimiter).meaning grammar c (.finished d (.error failures)) ↔
      ∃ values e, (item.meaning grammar).Items (delimiter.meaning grammar) c values e ∧
        ((delimiter.meaning grammar e (.finished d (.error failures)) ∧
            Cursor.position d ≠ Cursor.position e) ∨
          ∃ f first later, (delimiter.meaning grammar).Refuses e f first ∧
            item.meaning grammar f (.finished d (.error later)) ∧ failures = first ++ later) := by
  simp only [manyTill_eq_collect, meaning_collect_error_iff, rounds_tillItem_iff, tillItem_error_iff]

/-- A repetition up to a delimiter is stopped behind its items as the delimiter or the item is. -/
theorem manyTill_stopped_iff {why : Stop} :
    (item.manyTill delimiter).meaning grammar c (.stopped why) ↔
      ∃ values e, (item.meaning grammar).Items (delimiter.meaning grammar) c values e ∧
        (delimiter.meaning grammar e (.stopped why) ∨
          ∃ f failures, (delimiter.meaning grammar).Refuses e f failures ∧
            item.meaning grammar f (.stopped why)) := by
  simp only [manyTill_eq_collect, meaning_collect_stopped_iff, rounds_tillItem_iff, tillItem_stopped_iff]

end

/-- What is observed of a success of a parser that decides a language is in the language. -/
theorem Decides.language_of_meaning {parser : Parser R α} {language : List Char → α → Prop}
    {c d : TextCursor} {value : α} (h : parser.Decides grammar language c)
    (ran : parser.meaning grammar c (.finished d (.ok value))) :
    ∃ token, language token value ∧ d = c.past token := by
  obtain ⟨⟨e, found | failures⟩ | e, yields, observed⟩ := ran <;> cases observed
  rcases h with ⟨token, rest, other, -, accepted, position, yields'⟩ | ⟨token, failures, yields'⟩
  · cases yields.unique yields'
    exact ⟨token, accepted, rfl⟩
  · cases yields.unique yields'

/-- A repetition up to a delimiter ends behind items that consume something and before each of which the
delimiter has refused, in one of these ways. It succeeds if the delimiter matches there, which leaves the
cursor where the delimiter has left it. It also succeeds if the delimiter refuses and the item matches but
consumes nothing: the delimiter has not matched then. It fails if the delimiter fails and has consumed
something, or if neither of the two matches, and then with the failures of both. It is stopped if one of the
two is.

So if no item consumes nothing where it is applied, then to succeed is to match the delimiter. -/
theorem manyTill_stops (grammar : Grammar R) (S : Type) [Cursor S] (item : Parser R α)
    (delimiter : Parser R β) (c : S) :
    (∀ d values, (item.manyTill delimiter).meaning grammar c (.finished d (.ok values)) ↔
      (∃ e found, (item.meaning grammar).Items (delimiter.meaning grammar) c values e ∧
        delimiter.meaning grammar e (.finished d (.ok found))) ∨
      ∃ before last e f failures, values = before ++ [last] ∧
        (item.meaning grammar).Items (delimiter.meaning grammar) c before e ∧
        (delimiter.meaning grammar).Refuses e f failures ∧
        item.meaning grammar f (.finished d (.ok last)) ∧ Cursor.position d = Cursor.position e) ∧
    (∀ d failures, (item.manyTill delimiter).meaning grammar c (.finished d (.error failures)) ↔
      ∃ values e, (item.meaning grammar).Items (delimiter.meaning grammar) c values e ∧
        ((delimiter.meaning grammar e (.finished d (.error failures)) ∧
            Cursor.position d ≠ Cursor.position e) ∨
          ∃ f first later, (delimiter.meaning grammar).Refuses e f first ∧
            item.meaning grammar f (.finished d (.error later)) ∧ failures = first ++ later)) ∧
    (∀ why, (item.manyTill delimiter).meaning grammar c (.stopped why) ↔
      ∃ values e, (item.meaning grammar).Items (delimiter.meaning grammar) c values e ∧
        (delimiter.meaning grammar e (.stopped why) ∨
          ∃ f failures, (delimiter.meaning grammar).Refuses e f failures ∧
            item.meaning grammar f (.stopped why))) ∧
    ((∀ before e f failures d value,
        (item.meaning grammar).Items (delimiter.meaning grammar) c before e →
        (delimiter.meaning grammar).Refuses e f failures → item.meaning grammar f (.finished d (.ok value)) →
        Cursor.position d ≠ Cursor.position e) →
      ∀ d values, (item.manyTill delimiter).meaning grammar c (.finished d (.ok values)) ↔
        ∃ e found, (item.meaning grammar).Items (delimiter.meaning grammar) c values e ∧
          delimiter.meaning grammar e (.finished d (.ok found))) := by
  refine ⟨fun d values => manyTill_ok_iff, fun d failures => manyTill_error_iff, fun why => manyTill_stopped_iff, ?_⟩
  intro consumes d values
  apply manyTill_ok_iff.trans
  apply or_iff_left
  rintro ⟨before, last, e, f, failures, -, items, refused, matched, same⟩
  exact consumes before e f failures d last items refused matched same

/-- An item that consumes nothing ends the repetition with a success, although the delimiter does not match at
any place where it is tried. Letters consume something, so behind them only the delimiter ends it so. -/
theorem manyTill_stops_stalled :
    ((unit 'x').manyTill (literal "end")).meaning Grammar.empty (TextCursor.ofText "abc")
        (.finished (TextCursor.ofText "abc") (.ok ['x'])) ∧
      (∀ d found, ¬(literal "end").meaning Grammar.empty (TextCursor.ofText "abc")
        (.finished d (.ok found))) ∧
      ∀ d values, ((oneOf "a").manyTill (literal ";")).meaning Grammar.empty (TextCursor.ofText "aa;b")
          (.finished d (.ok values)) →
        ∃ e found, ((oneOf "a").meaning Grammar.empty).Items ((literal ";").meaning Grammar.empty)
            (TextCursor.ofText "aa;b") values e ∧
          (literal ";").meaning Grammar.empty e (.finished d (.ok found)) := by
  have refused : ((literal "end").meaning Grammar.empty).Refuses (TextCursor.ofText "abc")
      (TextCursor.ofText "abc") (.single ⟨literalMessage "end" (some 'a'), 0⟩) :=
    ⟨⟨_, ⟨20, rfl⟩, rfl⟩, rfl⟩
  refine ⟨?_, ?_, ?_⟩
  · obtain ⟨succeeds, -⟩ := manyTill_stops Grammar.empty TextCursor (unit 'x') (literal "end")
      (TextCursor.ofText "abc")
    refine (succeeds _ _).2 (.inr ⟨[], 'x', _, _, _, rfl, .none _, refused, ?_, rfl⟩)
    rw [meaning_unit]
    rfl
  · intro d found matched
    cases meaning_unique matched refused.1
  · intro d values
    obtain ⟨-, -, -, delimited⟩ := manyTill_stops Grammar.empty TextCursor (oneOf "a") (literal ";")
      (TextCursor.ofText "aa;b")
    refine (delimited ?_ d values).1
    intro before e f failures d value items refused matched same
    obtain ⟨token, ⟨rfl, -⟩, rfl⟩ := (decides_oneOf "a").language_of_meaning matched
    have consumed := TextCursor.position_past_eq_iff.1 (same.trans refused.2.symm)
    cases consumed

end Parsing.Parser
