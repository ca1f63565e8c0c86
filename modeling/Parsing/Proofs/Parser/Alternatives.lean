import Parsing.Parser.Combinator
import Parsing.Proofs.Cursor.Coherence

/-!
# Alternatives in order

A choice between many alternatives can be grouped by pairs in any way, or be made from a list: nothing about
its runs depends on this. A choice settles on the first alternative that does not fail where it started, and
ends as that does. The failures of those before are put in front of its own, all of them and in order, and what
comes behind it is not run.

The position that decides whether an alternative has consumed something is the one where the whole choice
began, in all groupings. This is what makes choices associative.
-/

namespace Parsing

/-- A text cursor that can be come by is determined by its position. -/
theorem TextCursor.eq_of_position_eq {text : String} {points made : List Point} {c d : TextCursor}
    (h : Cursor.Reached (ofText text) points c) (h' : Cursor.Reached (ofText text) made d)
    (same : d.position = c.position) : d = c := by
  have start : ∃ index ≤ text.toList.length, ofText text = standing text.toList index :=
    ⟨0, Nat.zero_le _, ofText_eq_standing text⟩
  obtain ⟨⟨index, -, rfl⟩, -⟩ := (closed_standing text.toList).reached start h
  obtain ⟨⟨other, -, rfl⟩, -⟩ := (closed_standing text.toList).reached start h'
  exact congrArg (standing text.toList) same

namespace Parser

variable {R : Type → Type} {S : Type} {α : Type} {grammar : Grammar R}

/-- How a run ends after several earlier alternatives have failed, one after the other. -/
def Halt.afterAll (earlier : List Failures) : Halt S α → Halt S α
  | finished d (.failure failures) => finished d (.failure (earlier.foldr (· ++ ·) failures))
  | finished d (.success value position) => finished d (.success value position)
  | stopped why d => stopped why d

/-- Where nothing has failed before nothing is put in front. -/
theorem Halt.afterAll_nil (halt : Halt S α) : halt.afterAll [] = halt := by
  rcases halt with ⟨d, value | failures⟩ | ⟨why, d⟩ <;> rfl

/-- The failures of the first alternative are put in front of the others. -/
theorem Halt.afterAll_cons (first : Failures) (earlier : List Failures) (halt : Halt S α) :
    halt.afterAll (first :: earlier) = (halt.afterAll earlier).after first := by
  rcases halt with ⟨d, value | failures⟩ | ⟨why, d⟩ <;> rfl

/-- All failures are kept, in order. -/
theorem toList_foldr_append (earlier : List Failures) (last : Failures) :
    (earlier.foldr (· ++ ·) last).toList = earlier.flatMap Failures.toList ++ last.toList := by
  induction earlier with
  | nil => rfl
  | cons first earlier ih =>
    rw [List.foldr_cons, Failures.toList_append, ih, List.flatMap_cons, List.append_assoc]

/-- Whether a run failed. -/
def Halt.isFailure : Halt S α → Bool
  | finished _ (.failure _) => true
  | finished _ (.success _ _) => false
  | stopped _ _ => false

/-- Failures put in front one after the other. -/
theorem Halt.after_after (earlier later : Failures) (halt : Halt S α) :
    (halt.after later).after earlier = halt.after (earlier ++ later) := by
  rcases halt with ⟨d, value | failures⟩ | ⟨why, d⟩
  · rfl
  · exact congrArg (fun all => Halt.finished d (.failure all)) (Failures.append_assoc _ _ _).symm
  · rfl

variable [Cursor S] {c d : S} {first second third : Parser R α} {halt last : Halt S α} {failures : Failures}

/-- The run did not fail where it started, so a choice goes by it. -/
def Halt.Settles (c : S) (halt : Halt S α) : Prop :=
  ∀ d failures, halt = .finished d (.failure failures) → Cursor.position d ≠ Cursor.position c

/-- Failures from before do not change whether a run settles a choice. -/
theorem Halt.settles_after_iff : (halt.after failures).Settles c ↔ halt.Settles c := by
  rcases halt with ⟨d, value | later⟩ | ⟨why, d⟩
  · rfl
  · constructor
    · intro settles e earlier ended
      cases ended
      exact settles d _ rfl
    · intro settles e earlier ended
      cases ended
      exact settles d _ rfl
  · rfl

/-- What is no failure settles a choice. -/
theorem Halt.settles_of_not_isFailure (h : halt.isFailure = false) : halt.Settles c := by
  rintro d failures rfl
  cases h

/-- Whether a choice is settled depends on where it began, and on nothing else. -/
theorem Halt.Settles.of_position (settles : halt.Settles c) (same : Cursor.position d = Cursor.position c) :
    halt.Settles d :=
  fun e failures ended => same ▸ settles e failures ended

/-- The first alternative is all there is if it settles the choice. -/
theorem yields_choice_of_settles (ran : first.Yields grammar c halt) (settles : halt.Settles c) :
    (choice first second).Yields grammar c halt := by
  refine yields_choice_iff.2 ⟨halt, ran, ?_⟩
  rcases halt with ⟨d, value | failures⟩ | ⟨why, d⟩
  · rfl
  · dsimp only
    rw [if_neg (settles d failures rfl)]
  · rfl

/-- The second alternative takes over where the first has failed in place. -/
theorem yields_choice_of_failure (failed : first.Yields grammar c (.finished d (.failure failures)))
    (same : Cursor.position d = Cursor.position c) (ran : second.Yields grammar d last) :
    (choice first second).Yields grammar c (last.after failures) := by
  refine yields_choice_iff.2 ⟨_, failed, ?_⟩
  dsimp only
  rw [if_pos same]
  exact ⟨last, ran, rfl⟩

/-- Either the first alternative settles a choice, or the second takes over. -/
theorem yields_choice_cases (h : (choice first second).Yields grammar c halt) :
    (first.Yields grammar c halt ∧ halt.Settles c) ∨ ∃ d failures last,
      first.Yields grammar c (.finished d (.failure failures)) ∧ Cursor.position d = Cursor.position c ∧
      second.Yields grammar d last ∧ last.after failures = halt := by
  obtain ⟨⟨d, value | failures⟩ | ⟨why, d⟩, ran, rest⟩ := yields_choice_iff.1 h
  · subst rest
    exact .inl ⟨ran, nofun⟩
  · dsimp only at rest
    split at rest
    · next same =>
      obtain ⟨last, ran', rfl⟩ := rest
      exact .inr ⟨d, failures, last, ran, same, ran', rfl⟩
    · next moved =>
      subst rest
      refine .inl ⟨ran, fun e later ended => ?_⟩
      cases ended
      exact moved
  · subst rest
    exact .inl ⟨ran, nofun⟩

/-- From every cursor the runs of the two parsers end alike, if they end. -/
def SameRuns (grammar : Grammar R) (S : Type) [Cursor S] (first second : Parser R α) : Prop :=
  ∀ (c : S) (halt : Halt S α), first.Yields grammar c halt ↔ second.Yields grammar c halt

namespace SameRuns

/-- A parser runs like itself. -/
theorem refl (parser : Parser R α) : SameRuns grammar S parser parser := fun _ _ => Iff.rfl

/-- If a parser runs like another then so does the other. -/
theorem symm (h : SameRuns grammar S first second) : SameRuns grammar S second first :=
  fun c halt => (h c halt).symm

/-- Parsers that run like the same one run alike. -/
theorem trans (h : SameRuns grammar S first second) (h' : SameRuns grammar S second third) :
    SameRuns grammar S first third :=
  fun c halt => (h c halt).trans (h' c halt)

/-- The alternatives of a choice can be replaced. -/
theorem choice {other another : Parser R α} (h : SameRuns grammar S first second)
    (h' : SameRuns grammar S other another) :
    SameRuns grammar S (Parser.choice first other) (Parser.choice second another) := by
  intro c halt
  simp only [yields_choice_iff, h c _, h' _ _]

/-- It does not matter how three alternatives are grouped. -/
theorem choice_assoc (first second third : Parser R α) :
    SameRuns grammar S (Parser.choice (Parser.choice first second) third)
      (Parser.choice first (Parser.choice second third)) := by
  intro c halt
  constructor
  · intro h
    rcases yields_choice_cases h with ⟨inner, settles⟩ | ⟨e, all, last, inner, same, ran, rfl⟩
    · rcases yields_choice_cases inner with ⟨ran, -⟩ | ⟨d, failures, last, failed, same, ran, rfl⟩
      · exact yields_choice_of_settles ran settles
      · have settled := (Halt.settles_after_iff.1 settles).of_position same
        exact yields_choice_of_failure failed same (yields_choice_of_settles ran settled)
    · -- the inner choice has failed in place, so both of its alternatives have
      rcases yields_choice_cases inner with ⟨-, settles⟩ | ⟨d, failures, middle, failed, same', ran', ended⟩
      · exact absurd same (settles e all rfl)
      · rcases middle with ⟨f, value | later⟩ | ⟨why, f⟩ <;> cases ended
        rw [← Halt.after_after]
        exact yields_choice_of_failure failed same'
          (yields_choice_of_failure ran' (same.trans same'.symm) ran)
  · intro h
    rcases yields_choice_cases h with ⟨ran, settles⟩ | ⟨d, failures, last, failed, same, inner, rfl⟩
    · exact yields_choice_of_settles (yields_choice_of_settles ran settles) settles
    · rcases yields_choice_cases inner with ⟨ran, settles⟩ | ⟨e, later, final, ran, same', ran', rfl⟩
      · apply yields_choice_of_settles (yields_choice_of_failure failed same ran)
        exact Halt.settles_after_iff.2 (settles.of_position same.symm)
      · rw [Halt.after_after]
        exact yields_choice_of_failure (yields_choice_of_failure failed same ran) (same'.trans same) ran'

/-- The first of many alternatives can be replaced. -/
theorem foldl (rest : List (Parser R α)) (h : SameRuns grammar S first second) :
    SameRuns grammar S (rest.foldl Parser.choice first) (rest.foldl Parser.choice second) := by
  induction rest generalizing first second with
  | nil => exact h
  | cons next rest ih => exact ih (h.choice (.refl next))

/-- An alternative in front of many others can be set apart. -/
theorem foldl_choice (rest : List (Parser R α)) (first second : Parser R α) :
    SameRuns grammar S (rest.foldl Parser.choice (Parser.choice first second))
      (Parser.choice first (rest.foldl Parser.choice second)) := by
  induction rest generalizing second with
  | nil => exact .refl _
  | cons next rest ih => exact (foldl rest (choice_assoc first second next)).trans (ih _)

/-- Two lists of alternatives one behind the other. -/
theorem choices_append {alternatives others : List (Parser R α)} (nonempty : alternatives ≠ [])
    (nonempty' : others ≠ []) :
    SameRuns grammar S (choices (alternatives ++ others))
      (Parser.choice (choices alternatives) (choices others)) := by
  obtain ⟨first, rest, rfl⟩ := List.exists_cons_of_ne_nil nonempty
  obtain ⟨next, more, rfl⟩ := List.exists_cons_of_ne_nil nonempty'
  rw [List.cons_append, choices, List.foldl_append]
  exact foldl_choice more _ next

end SameRuns

/-- Alternatives, grouped by pairs in some way. -/
inductive Grouping (R : Type → Type) (α : Type) where
  | one (parser : Parser R α)
  | either (first second : Grouping R α)

namespace Grouping

/-- The choice between the alternatives, as they are grouped. -/
def choose : Grouping R α → Parser R α
  | one parser => parser
  | either first second => choice first.choose second.choose

/-- The alternatives in order. -/
def alternatives : Grouping R α → List (Parser R α)
  | one parser => [parser]
  | either first second => first.alternatives ++ second.alternatives

/-- There is always an alternative. -/
theorem alternatives_ne_nil (grouping : Grouping R α) : grouping.alternatives ≠ [] := by
  induction grouping with
  | one parser => exact List.cons_ne_nil _ _
  | either first second ih _ => exact List.append_ne_nil_of_left_ne_nil ih _

/-- Grouping plays no part in how a choice runs. -/
theorem sameRuns_choices (grouping : Grouping R α) :
    SameRuns grammar S grouping.choose (choices grouping.alternatives) := by
  induction grouping with
  | one parser => exact .refl parser
  | either first second ih ih' =>
    apply (ih.choice ih').trans
    exact (SameRuns.choices_append first.alternatives_ne_nil second.alternatives_ne_nil).symm

end Grouping

/-- Fail with these failures and consume nothing. -/
def FailsInPlace (grammar : Grammar R) (parser : Parser R α) (c : S) (failures : Failures) : Prop :=
  ∃ d, parser.Yields grammar c (.finished d (.failure failures)) ∧ Cursor.position d = Cursor.position c

/-- A run that does not fail in place settles a choice. -/
theorem settles_of_not_failsInPlace (h : ∀ failures, ¬first.FailsInPlace grammar c failures)
    (ran : first.Yields grammar c halt) : halt.Settles c :=
  fun d failures ended same => h failures ⟨d, ended ▸ ran, same⟩

/-- In every list of alternatives there is a first one that does not fail in place, unless all do. -/
theorem exists_tried (grammar : Grammar R) (c : S) (parsers : List (Parser R α)) :
    ∃ tried : List (Parser R α × Failures), (∀ each ∈ tried, each.1.FailsInPlace grammar c each.2) ∧
      (parsers = tried.map Prod.fst ∨ ∃ parser later, parsers = tried.map Prod.fst ++ parser :: later ∧
        ∀ failures, ¬parser.FailsInPlace grammar c failures) := by
  induction parsers with
  | nil => exact ⟨[], List.forall_mem_nil _, .inl rfl⟩
  | cons first rest ih =>
    by_cases fails : ∃ failures, first.FailsInPlace grammar c failures
    · obtain ⟨failures, failed⟩ := fails
      obtain ⟨tried, all, ended⟩ := ih
      refine ⟨(first, failures) :: tried, List.forall_mem_cons.2 ⟨failed, all⟩, ?_⟩
      rcases ended with rfl | ⟨parser, later, rfl, settles⟩
      · exact .inl rfl
      · exact .inr ⟨parser, later, rfl, settles⟩
    · exact ⟨[], List.forall_mem_nil _, .inr ⟨first, rest, rfl, not_exists.1 fails⟩⟩

/-- A choice runs as its first alternative if that does not fail in place, or if it is the only one. -/
theorem yields_choices_cons_iff {later : List (Parser R α)}
    (settles : later = [] ∨ ∀ failures, ¬first.FailsInPlace grammar c failures) :
    (choices (first :: later)).Yields grammar c halt ↔ first.Yields grammar c halt := by
  cases later with
  | nil => rfl
  | cons next later =>
    have settled := settles.resolve_left (List.cons_ne_nil _ _)
    apply (SameRuns.choices_append (List.cons_ne_nil first []) (List.cons_ne_nil next later) c halt).trans
    constructor
    · intro h
      rcases yields_choice_cases h with ⟨ran, -⟩ | ⟨d, failures, last, failed, same, -⟩
      · exact ran
      · exact absurd ⟨d, failed, same⟩ (settled failures)
    · intro ran
      exact yields_choice_of_settles ran (settles_of_not_failsInPlace settled ran)

/-- Behind failures in place a choice runs as its second alternative. -/
theorem yields_choice_iff_of_failure (failed : first.Yields grammar c (.finished d (.failure failures)))
    (same : Cursor.position d = Cursor.position c) :
    (choice first second).Yields grammar c halt ↔
      ∃ last, second.Yields grammar d last ∧ last.after failures = halt := by
  constructor
  · intro h
    rcases yields_choice_cases h with ⟨ran, settles⟩ | ⟨e, later, last, failed', -, ran, ended⟩
    · cases ran.unique failed
      exact absurd same (settles d failures rfl)
    · cases failed'.unique failed
      exact ⟨last, ran, ended⟩
  · rintro ⟨last, ran, rfl⟩
    exact yields_choice_of_failure failed same ran

/-- A choice runs as the first alternative that does not fail in place, or as the last one, behind the failures
of those before, if alternatives that fail in place leave the cursor as it was. -/
theorem yields_choices_iff (stays : ∀ (parser : Parser R α) (d : S) (failures : Failures),
      parser.Yields grammar c (.finished d (.failure failures)) → Cursor.position d = Cursor.position c → d = c)
    {tried : List (Parser R α × Failures)} (failed : ∀ each ∈ tried, each.1.FailsInPlace grammar c each.2)
    {later : List (Parser R α)} (settles : later = [] ∨ ∀ failures, ¬first.FailsInPlace grammar c failures) :
    (choices (tried.map Prod.fst ++ first :: later)).Yields grammar c halt ↔
      ∃ last, first.Yields grammar c last ∧ last.afterAll (tried.map Prod.snd) = halt := by
  induction tried generalizing halt with
  | nil => simpa [Halt.afterAll_nil] using yields_choices_cons_iff settles
  | cons each tried ih =>
    obtain ⟨⟨d, ran, same⟩, rest⟩ := List.forall_mem_cons.1 failed
    cases stays _ d _ ran same
    -- what is left of the list is tried from the same cursor, where the others fail in place as well
    have apart : SameRuns grammar S _ _ := SameRuns.choices_append (List.cons_ne_nil each.1 [])
      (List.append_ne_nil_of_right_ne_nil (tried.map Prod.fst) (List.cons_ne_nil first later))
    apply (apart c halt).trans
    apply (yields_choice_iff_of_failure ran rfl).trans
    simp only [ih rest, List.map_cons, Halt.afterAll_cons]
    constructor
    · rintro ⟨-, ⟨last, ran', rfl⟩, rfl⟩
      exact ⟨last, ran', rfl⟩
    · rintro ⟨last, ran', rfl⟩
      exact ⟨_, ⟨last, ran', rfl⟩, rfl⟩

/-- Alternatives that fail in place on a text leave the cursor as it was. -/
theorem stays_of_reached {text : String} {points : List TextCursor.Point} {c : TextCursor}
    (reached : Cursor.Reached (TextCursor.ofText text) points c) (parser : Parser R α) (d : TextCursor)
    (failures : Failures) (ran : parser.Yields grammar c (.finished d (.failure failures)))
    (same : Cursor.position d = Cursor.position c) : d = c := by
  obtain ⟨made, reached', -⟩ := reached.yields ran
  exact TextCursor.eq_of_position_eq reached reached' same

section

variable {text : String} {points : List TextCursor.Point} {c d : TextCursor}
  {tried : List (Parser R α × Failures)} {parser : Parser R α} {later : List (Parser R α)}

/-- A choice on a text fails as the first alternative that does not fail in place, with the failures of those
before in front. -/
theorem choices_failure_iff (reached : Cursor.Reached (TextCursor.ofText text) points c)
    (failed : ∀ each ∈ tried, each.1.FailsInPlace grammar c each.2)
    (settles : ∀ failures, ¬parser.FailsInPlace grammar c failures) {all : Failures} :
    (choices (tried.map Prod.fst ++ parser :: later)).Yields grammar c (.finished d (.failure all)) ↔
      ∃ failures, parser.Yields grammar c (.finished d (.failure failures)) ∧
        all.toList = tried.flatMap (·.2.toList) ++ failures.toList := by
  apply (yields_choices_iff (stays_of_reached reached) failed (.inr settles)).trans
  constructor
  · rintro ⟨⟨e, found | failures⟩ | ⟨why, e⟩, ran, ended⟩ <;> cases ended
    refine ⟨failures, ran, ?_⟩
    rw [toList_foldr_append, List.flatMap_map]
  · rintro ⟨failures, ran, listed⟩
    refine ⟨_, ran, congrArg (fun all => Halt.finished d (.failure all)) (Failures.ext_toList ?_)⟩
    rw [toList_foldr_append, List.flatMap_map, listed]

/-- A choice on a text succeeds or is stopped as the first alternative that does not fail in place. -/
theorem choices_other_iff (reached : Cursor.Reached (TextCursor.ofText text) points c)
    (failed : ∀ each ∈ tried, each.1.FailsInPlace grammar c each.2)
    (settles : ∀ failures, ¬parser.FailsInPlace grammar c failures) {halt : Halt TextCursor α}
    (other : halt.isFailure = false) :
    (choices (tried.map Prod.fst ++ parser :: later)).Yields grammar c halt ↔
      parser.Yields grammar c halt := by
  apply (yields_choices_iff (stays_of_reached reached) failed (.inr settles)).trans
  constructor
  · rintro ⟨⟨e, found | failures⟩ | ⟨why, e⟩, ran, rfl⟩
    · exact ran
    · cases other
    · exact ran
  · intro ran
    refine ⟨halt, ran, ?_⟩
    rcases halt with ⟨d, value | failures⟩ | ⟨why, d⟩
    · rfl
    · cases other
    · rfl

/-- A choice on a text all of whose alternatives fail in place does so too, with the failures of all. -/
theorem choices_exhausted (reached : Cursor.Reached (TextCursor.ofText text) points c)
    (failed : ∀ each ∈ tried, each.1.FailsInPlace grammar c each.2) (nonempty : tried ≠ []) :
    ∃ all, all.toList = tried.flatMap (·.2.toList) ∧
      (choices (tried.map Prod.fst)).Yields grammar c (.finished c (.failure all)) := by
  rcases List.eq_nil_or_concat tried with rfl | ⟨before, ⟨last, failures⟩, rfl⟩
  · exact absurd rfl nonempty
  · rw [List.concat_eq_append] at failed ⊢
    obtain ⟨earlier, final⟩ := List.forall_mem_append.1 failed
    obtain ⟨d, ran, same⟩ := final _ (List.mem_singleton_self _)
    cases stays_of_reached reached last d failures ran same
    refine ⟨(before.map Prod.snd).foldr (· ++ ·) failures, ?_, ?_⟩
    · rw [toList_foldr_append, List.flatMap_map, List.flatMap_append, List.flatMap_singleton]
    · rw [List.map_append]
      exact (yields_choices_iff (stays_of_reached reached) earlier (.inl rfl)).2 ⟨_, ran, rfl⟩

end

/-- However alternatives are grouped, the runs of the choice between them end like those of the choice that is
made from their list.

On a text, from every cursor that can be come by, there is a first alternative that does not fail in place,
unless all of them do. The choice ends as that alternative does, and if that fails then with the failures of
those before in front. What comes behind plays no part. If all fail in place then the choice fails with the
failures of all, and leaves the cursor as it was. -/
theorem alternatives_in_order (grammar : Grammar R) :
    (∀ (S : Type) [Cursor S] (grouping : Grouping R α),
      SameRuns grammar S grouping.choose (choices grouping.alternatives)) ∧
    ∀ text points c, Cursor.Reached (TextCursor.ofText text) points c →
      (∀ parsers : List (Parser R α), ∃ tried : List (Parser R α × Failures),
        (∀ each ∈ tried, each.1.FailsInPlace grammar c each.2) ∧
          (parsers = tried.map Prod.fst ∨ ∃ parser later, parsers = tried.map Prod.fst ++ parser :: later ∧
            ∀ failures, ¬parser.FailsInPlace grammar c failures)) ∧
      ∀ tried : List (Parser R α × Failures), (∀ each ∈ tried, each.1.FailsInPlace grammar c each.2) →
        (∀ parser later, (∀ failures, ¬parser.FailsInPlace grammar c failures) →
          let whole := choices (tried.map Prod.fst ++ parser :: later)
          (∀ d value position, whole.Yields grammar c (.finished d (.success value position)) ↔
            parser.Yields grammar c (.finished d (.success value position))) ∧
          (∀ why d, whole.Yields grammar c (.stopped why d) ↔ parser.Yields grammar c (.stopped why d)) ∧
          ∀ d all, whole.Yields grammar c (.finished d (.failure all)) ↔
            ∃ failures, parser.Yields grammar c (.finished d (.failure failures)) ∧
              all.toList = tried.flatMap (·.2.toList) ++ failures.toList) ∧
        (tried ≠ [] → ∃ all, all.toList = tried.flatMap (·.2.toList) ∧
          (choices (tried.map Prod.fst)).Yields grammar c (.finished c (.failure all))) := by
  refine ⟨fun S _ grouping => grouping.sameRuns_choices, ?_⟩
  intro text points c reached
  refine ⟨exists_tried grammar c, ?_⟩
  intro tried failed
  constructor
  · intro parser later settles
    exact ⟨fun d value position => choices_other_iff reached failed settles rfl,
      fun why d => choices_other_iff reached failed settles rfl,
      fun d all => choices_failure_iff reached failed settles⟩
  · exact choices_exhausted reached failed

/-- Behind a character that has been consumed, an alternative fails in place and another one after it has
consumed something, so a third one that would match is not run, however the three are grouped. -/
theorem alternatives_in_order_committed :
    let c := (Cursor.read (TextCursor.ofText "xabd")).2
    let committed : Parser NoRule String := bind (literal "a") fun _ => literal "c"
    Cursor.Reached (TextCursor.ofText "xabd") [] c ∧
      (literal "b").FailsInPlace Grammar.empty c ⟨⟨"Expected `b` but found `a`.", 1⟩, []⟩ ∧
      (∀ failures, ¬committed.FailsInPlace Grammar.empty c failures) ∧
      (Grouping.either (.one (literal "b")) (.either (.one committed) (.one (literal "a")))).choose.Yields
        Grammar.empty c (.finished (Cursor.read c).2 (.failure
          ⟨⟨"Expected `b` but found `a`.", 1⟩, [⟨"Expected `c` but found `b`.", 2⟩]⟩)) := by
  intro c committed
  have reached : Cursor.Reached (TextCursor.ofText "xabd") [] c := .read .start
  have inPlace : (literal "b").FailsInPlace Grammar.empty c ⟨⟨"Expected `b` but found `a`.", 1⟩, []⟩ :=
    ⟨c, ⟨20, rfl⟩, rfl⟩
  have ran : committed.Yields Grammar.empty c (.finished (Cursor.read c).2 (.failure
      ⟨⟨"Expected `c` but found `b`.", 2⟩, []⟩)) := ⟨20, rfl⟩
  have settles : ∀ failures, ¬committed.FailsInPlace Grammar.empty c failures := by
    rintro failures ⟨d, failed, same⟩
    cases failed.unique ran
    cases same
  obtain ⟨grouped, onText⟩ := alternatives_in_order (α := String) Grammar.empty
  obtain ⟨-, ordered⟩ := onText "xabd" [] c reached
  obtain ⟨first, -⟩ := ordered [(literal "b", ⟨⟨"Expected `b` but found `a`.", 1⟩, []⟩)]
    (List.forall_mem_singleton.2 inPlace)
  obtain ⟨-, -, failure⟩ := first committed [literal "a"] settles
  refine ⟨reached, inPlace, settles, (grouped TextCursor _ c _).2 ?_⟩
  exact (failure _ _).2 ⟨_, ran, rfl⟩

end Parser

end Parsing
