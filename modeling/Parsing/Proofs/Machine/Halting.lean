import Parsing.Parser.Combinator
import Parsing.Proofs.Cursor.Forward

/-!
# Runs that come to an end

A run comes to an end if the runs of its parts do. Only two things could keep it going for ever. A repetition
could start its item again and again; but it goes on only while something is consumed, no item leaves the cursor
behind the place where it started, and there is only so much to consume. And a rule could come to be started
inside its own body.

So it is enough that the rules which a parser calls come to an end from wherever it may call them: at or behind
the place where it started. If the rules can be put in an order in which none calls a later one, that follows.
-/

namespace Parsing

variable {R : Type → Type} {S : Type} [Cursor S] {α β γ : Type} {grammar : Grammar R}

namespace Parser

/-- The run of a parser on a cursor comes to an end, with a result or stopped. -/
def Halts (grammar : Grammar R) (parser : Parser R α) (c : S) : Prop := ∃ halt, parser.Yields grammar c halt

/-- The run of a parser on a cursor is stopped for want of room. -/
def Overflows (grammar : Grammar R) (parser : Parser R α) (c : S) : Prop :=
  ∃ d, parser.Yields grammar c (.stopped .overflow d)

/-- The run of a parser on a cursor comes to an end, and not for want of room. -/
structure Completes (grammar : Grammar R) (parser : Parser R α) (c : S) : Prop where
  halts : parser.Halts grammar c
  roomy : ¬parser.Overflows grammar c

/-- A property holds of all rules that a parser calls itself. -/
def EachCall (holds : {β : Type} → R β → Prop) : {α : Type} → Parser R α → Prop
  | _, .scan _ => True
  | _, .bind first next => first.EachCall holds ∧ ∀ value, (next value).EachCall holds
  | _, .map _ parser => parser.EachCall holds
  | _, .choice first second => first.EachCall holds ∧ second.EachCall holds
  | _, .attempt parser => parser.EachCall holds
  | _, .lookAhead parser => parser.EachCall holds
  | _, .call rule => holds rule
  | _, .collect item _ => item.EachCall holds

/-- A property of the rules that a parser calls implies another. -/
theorem EachCall.mono {holds other : {β : Type} → R β → Prop} {parser : Parser R α}
    (h : parser.EachCall holds) (implies : ∀ {β : Type} (rule : R β), holds rule → other rule) :
    parser.EachCall other := by
  induction parser with
  | scan program => trivial
  | bind first next ihfirst ihnext => exact ⟨ihfirst h.1, fun value => ihnext value (h.2 value)⟩
  | map f parser ih => exact ih h
  | choice first second ihfirst ihsecond => exact ⟨ihfirst h.1, ihsecond h.2⟩
  | attempt parser ih => exact ih h
  | lookAhead parser ih => exact ih h
  | call rule => exact implies rule h
  | collect item newestFirst ih => exact ih h

/-- What holds of all rules there are holds of those that a parser calls. -/
theorem eachCall_of_forall {holds : {β : Type} → R β → Prop} (h : ∀ {β : Type} (rule : R β), holds rule)
    (parser : Parser R α) : parser.EachCall holds := by
  induction parser with
  | scan program => trivial
  | bind first next ihfirst ihnext => exact ⟨ihfirst, ihnext⟩
  | choice first second ihfirst ihsecond => exact ⟨ihfirst, ihsecond⟩
  | call rule => exact h rule
  | map _ _ ih | attempt _ ih | lookAhead _ ih | collect _ _ ih => exact ih

/-! ## One law an operation -/

variable {c : S}

/-- A scan comes to an end. -/
theorem halts_scan (program : Scan α) : (scan program).Halts grammar c := ⟨_, yields_scan_iff.2 rfl⟩

/-- A rule comes to an end if what it stands for does. -/
theorem halts_call_iff {rule : R α} : (call rule).Halts grammar c ↔ (grammar α rule).Halts grammar c :=
  exists_congr fun _ => yields_call_iff

namespace Halts

variable {parser : Parser R α}

/-- A sequence comes to an end if its first part does, and its second part does behind a success of the first. -/
theorem bind (h : parser.Halts grammar c) {next : α → Parser R β}
    (rest : ∀ d value position, parser.Yields grammar c (.finished d (.success value position)) →
      (next value).Halts grammar d) : (Parser.bind parser next).Halts grammar c := by
  obtain ⟨⟨d, value | failures⟩ | ⟨why, d⟩, first⟩ := h
  · obtain ⟨halt, last⟩ := rest d value _ first
    exact ⟨halt, yields_bind_iff.2 ⟨_, first, last⟩⟩
  · exact ⟨_, yields_bind_iff.2 ⟨_, first, rfl⟩⟩
  · exact ⟨_, yields_bind_iff.2 ⟨_, first, rfl⟩⟩

/-- A parser comes to an end whatever is made of its value. -/
theorem map (f : α → β) (h : parser.Halts grammar c) : (Parser.map f parser).Halts grammar c := by
  obtain ⟨⟨d, result⟩ | ⟨why, d⟩, part⟩ := h
  · exact ⟨_, yields_map_iff.2 ⟨_, part, rfl⟩⟩
  · exact ⟨_, yields_map_iff.2 ⟨_, part, rfl⟩⟩

/-- A choice comes to an end if its first part does, and its second part does behind a failure of the first. -/
theorem choice (h : parser.Halts grammar c) {second : Parser R α}
    (rest : ∀ d failures, parser.Yields grammar c (.finished d (.failure failures)) →
      second.Halts grammar d) : (Parser.choice parser second).Halts grammar c := by
  obtain ⟨⟨d, value | failures⟩ | ⟨why, d⟩, first⟩ := h
  · exact ⟨_, yields_choice_iff.2 ⟨_, first, rfl⟩⟩
  · by_cases same : Cursor.position d = Cursor.position c
    · obtain ⟨halt, last⟩ := rest d failures first
      refine ⟨halt.after failures, yields_choice_iff.2 ⟨_, first, ?_⟩⟩
      dsimp only
      rw [if_pos same]
      exact ⟨halt, last, rfl⟩
    · refine ⟨.finished d (.failure failures), yields_choice_iff.2 ⟨_, first, ?_⟩⟩
      dsimp only
      rw [if_neg same]
  · exact ⟨_, yields_choice_iff.2 ⟨_, first, rfl⟩⟩

/-- An attempt comes to an end if its parser does behind the mark. -/
theorem attempt (h : parser.Halts grammar (Cursor.mark c).2) : (Parser.attempt parser).Halts grammar c := by
  obtain ⟨⟨d, value | failures⟩ | ⟨why, d⟩, part⟩ := h
  · exact ⟨_, yields_attempt_iff.2 ⟨_, part, rfl⟩⟩
  · exact ⟨_, yields_attempt_iff.2 ⟨_, part, rfl⟩⟩
  · exact ⟨_, yields_attempt_iff.2 ⟨_, part, rfl⟩⟩

/-- A look-ahead comes to an end if its parser does behind the mark. -/
theorem lookAhead (h : parser.Halts grammar (Cursor.mark c).2) :
    (Parser.lookAhead parser).Halts grammar c := by
  obtain ⟨⟨d, value | failures⟩ | ⟨why, d⟩, part⟩ := h
  · exact ⟨_, yields_lookAhead_iff.2 ⟨_, part, rfl⟩⟩
  · exact ⟨_, yields_lookAhead_iff.2 ⟨_, part, rfl⟩⟩
  · exact ⟨_, yields_lookAhead_iff.2 ⟨_, part, rfl⟩⟩

/-- A repetition comes to an end if its item does, and if it does itself behind an item that consumed
something. -/
theorem collect {item : Parser R (Option α)} {newestFirst : List α} (h : item.Halts grammar c)
    (rest : ∀ d value position, item.Yields grammar c (.finished d (.success (some value) position)) →
      Cursor.position d ≠ Cursor.position c → (Parser.collect item (value :: newestFirst)).Halts grammar d) :
    (Parser.collect item newestFirst).Halts grammar c := by
  obtain ⟨⟨d, ⟨_ | value, position⟩ | failures⟩ | ⟨why, d⟩, round⟩ := h
  · exact ⟨_, yields_collect_iff.2 ⟨_, round, rfl⟩⟩
  · by_cases same : Cursor.position d = Cursor.position c
    · refine ⟨.finished d (.success (value :: newestFirst).reverse (Cursor.position d)),
        yields_collect_iff.2 ⟨_, round, ?_⟩⟩
      dsimp only
      rw [if_pos same]
    · obtain ⟨halt, last⟩ := rest d value position round same
      refine ⟨halt, yields_collect_iff.2 ⟨_, round, ?_⟩⟩
      dsimp only
      rw [if_neg same]
      exact last
  · exact ⟨_, yields_collect_iff.2 ⟨_, round, rfl⟩⟩
  · exact ⟨_, yields_collect_iff.2 ⟨_, round, rfl⟩⟩

end Halts

/-! ## Want of room -/

/-- To ask for too much room stops the run at once. -/
theorem yields_withRoom_of_lt {bytes : Nat} (lacks : maxRoom < bytes) (parser : Parser R α) (c : S) :
    (parser.withRoom bytes).Yields grammar c (.stopped .overflow c) := by
  rw [withRoom_of_lt lacks]
  exact yields_scan_iff.2 rfl

/-- A block for which there is no room stops the run, however much is left of the document. -/
theorem characters_overflows {count : Nat} (lacks : maxRoom < count) (c : S) :
    (characters count).Overflows grammar c :=
  ⟨_, yields_attempt_iff.2 ⟨_, yields_withRoom_of_lt lacks _ _, rfl⟩⟩

/-- A repetition whose values there is no room for stops the run, whatever is repeated. -/
theorem replicate_overflows {size count : Nat} (lacks : maxRoom < count * size) (parser : Parser R α) (c : S) :
    (parser.replicate size count).Overflows grammar c :=
  ⟨_, yields_withRoom_of_lt lacks _ c⟩

end Parser

open Parsing.Parser

variable {opens : S → List (Cursor.Point S × Nat) → Prop} {size : Nat} {c : S}
  {marks : List (Cursor.Point S × Nat)}

namespace Cursor.Honours

/-- A repetition comes to an end if its item does wherever it is started again: there is always less left to
consume. -/
theorem halts_collect (honours : Cursor.Honours S opens)
    (inside : ∀ d marks, opens d marks → Cursor.position d ≤ size) {item : Parser R (Option α)}
    (rounds : ∀ d, opens d marks → Cursor.position c ≤ Cursor.position d → item.Halts grammar d)
    (opened : opens c marks) (newestFirst : List α) :
    (Parser.collect item newestFirst).Halts grammar c := by
  induction hleft : size - Cursor.position c using Nat.strongRecOn generalizing c newestFirst with
  | _ left ih =>
    apply (rounds c opened (Nat.le_refl _)).collect
    intro d value position round moved
    obtain ⟨opened', forwards⟩ := honours.finishes round.finishes opened
    have onwards : Cursor.position c < Cursor.position d := Nat.lt_of_le_of_ne forwards moved.symm
    have bound := inside d marks opened'
    exact ih (size - Cursor.position d) (by omega)
      (fun e opened later => rounds e opened (Nat.le_trans forwards later)) opened' _ rfl

/-- A parser comes to an end if the rules that it calls do at or behind the place where it started. -/
theorem halts (honours : Cursor.Honours S opens)
    (inside : ∀ d marks, opens d marks → Cursor.position d ≤ size) (parser : Parser R α)
    (opened : opens c marks)
    (calls : parser.EachCall fun rule => ∀ d marks, opens d marks →
      Cursor.position c ≤ Cursor.position d → (call rule).Halts grammar d) : parser.Halts grammar c := by
  -- the cursor moves on from part to part, but what is known of the rules is fixed at the start
  suffices general : ∀ d marks, opens d marks → Cursor.position c ≤ Cursor.position d →
      parser.Halts grammar d from general c marks opened (Nat.le_refl _)
  induction parser with
  | scan program => exact fun d marks _ _ => halts_scan program
  | bind first next ihfirst ihnext =>
    intro d marks opened later
    apply (ihfirst calls.1 d marks opened later).bind
    intro e value position part
    obtain ⟨opened', forwards⟩ := honours.finishes part.finishes opened
    exact ihnext value (calls.2 value) e marks opened' (Nat.le_trans later forwards)
  | map f parser ih => exact fun d marks opened later => (ih calls d marks opened later).map f
  | choice first second ihfirst ihsecond =>
    intro d marks opened later
    apply (ihfirst calls.1 d marks opened later).choice
    intro e failures part
    obtain ⟨opened', forwards⟩ := honours.finishes part.finishes opened
    exact ihsecond calls.2 e marks opened' (Nat.le_trans later forwards)
  | attempt parser ih =>
    intro d marks opened later
    obtain ⟨marked, here⟩ := honours.mark opened
    exact (ih calls _ _ marked (here ▸ later)).attempt
  | lookAhead parser ih =>
    intro d marks opened later
    obtain ⟨marked, here⟩ := honours.mark opened
    exact (ih calls _ _ marked (here ▸ later)).lookAhead
  | call rule => exact calls
  | collect item newestFirst ih =>
    intro d marks opened later
    exact honours.halts_collect inside (fun e opened' forwards =>
      ih calls e marks opened' (Nat.le_trans later forwards)) opened newestFirst

/-- A parser in brackets comes to an end if the opening bracket does and is not empty, and all rules do behind
the place where it started. -/
theorem halts_enclosedBy (honours : Cursor.Honours S opens)
    (inside : ∀ d marks, opens d marks → Cursor.position d ≤ size) (inner : Parser R α)
    {opening : Parser R β} (closing : Parser R γ) (opened : opens c marks) (first : opening.Halts grammar c)
    (advances : ∀ d value position, opening.Yields grammar c (.finished d (.success value position)) →
      Cursor.position c < Cursor.position d)
    (calls : ∀ {δ : Type} (rule : R δ) d marks, opens d marks → Cursor.position c < Cursor.position d →
      (call rule).Halts grammar d) : (inner.enclosedBy opening closing).Halts grammar c := by
  apply first.bind
  intro d value position part
  have onwards := advances d value position part
  obtain ⟨opened', -⟩ := honours.finishes part.finishes opened
  exact honours.halts inside _ opened' (eachCall_of_forall (fun rule e marks opened later =>
    calls rule e marks opened (Nat.lt_of_lt_of_le onwards later)) _)

end Cursor.Honours

/-- The rules can be put in an order in which none calls itself or a later one. -/
def Grammar.Nonrecursive (grammar : Grammar R) : Prop :=
  ∃ lower : (Σ β, R β) → (Σ β, R β) → Prop, WellFounded lower ∧
    ∀ β rule, (grammar β rule).EachCall fun {γ} other => lower ⟨γ, other⟩ ⟨β, rule⟩

/-- Without rules there is nothing to put in order. -/
theorem Grammar.nonrecursive_empty : Grammar.empty.Nonrecursive :=
  ⟨fun _ _ => False, ⟨fun rule => ⟨rule, fun _ h => h.elim⟩⟩, fun _ rule => nomatch rule⟩

/-- Without recursion every parser comes to an end. -/
theorem Cursor.Honours.halts_of_nonrecursive (honours : Cursor.Honours S opens)
    (inside : ∀ d marks, opens d marks → Cursor.position d ≤ size) (nonrecursive : grammar.Nonrecursive)
    (parser : Parser R α) (opened : opens c marks) : parser.Halts grammar c := by
  obtain ⟨lower, wellFounded, below⟩ := nonrecursive
  have rules (rule : Σ β, R β) : ∀ d marks, opens d marks → (call rule.2).Halts grammar d := by
    induction rule using wellFounded.induction with
    | _ rule ih =>
      intro d marks opened
      rw [halts_call_iff]
      exact honours.halts inside _ opened ((below rule.1 rule.2).mono fun other h =>
        fun e marks opened _ => ih ⟨_, other⟩ h e marks opened)
  exact honours.halts inside parser opened
    (eachCall_of_forall (fun rule d marks opened _ => rules ⟨_, rule⟩ d marks opened) parser)

end Parsing
