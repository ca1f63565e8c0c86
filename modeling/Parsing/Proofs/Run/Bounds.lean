import Parsing.Proofs.Cursor.Coherence
import Parsing.Proofs.Json.Standard
import Parsing.Proofs.Parser.Positions
import Parsing.Proofs.Run.Indexed
import Parsing.Proofs.Run.Source

/-!
# Positions stay inside the document

A run only ever leaves the cursor at or behind the place where it began, and never behind the end of the
document. The positions of all failures, and what a success claims, lie between the same bounds. So they can
be located in the document, and a repetition that goes on as long as something is consumed comes to an end.

This holds on a text and on a source that holds a text and never faults, from every cursor that can be come
by. What is asked of the parser is only that its scans do not make up positions. All parsers built from the
primitive ones are like that.
-/

namespace Parsing

open Parsing.Parser Bytes

variable {R : Type → Type} {S : Type} [Cursor S] {α : Type}

/-- A run that finishes goes forwards, stays inside a document of this size, and reports positions at or
behind the place where it began that are inside the document. -/
def Parser.AdvancesWithin (grammar : Grammar R) (parser : Parser R α) (c : S) (size : Nat) : Prop :=
  ∀ d result, parser.Yields grammar c (.finished d result) →
    Cursor.position c ≤ Cursor.position d ∧ Cursor.position d ≤ size ∧
      ∀ place ∈ result.places, Cursor.position c ≤ place ∧ place ≤ size

/-- Runs stay inside the document from every cursor that can be come by, if no such cursor is behind the
end. -/
theorem Cursor.Closed.advancesWithin {holds : S → Prop} {valid : Cursor.Point S → Prop}
    (closed : Cursor.Closed S holds valid) {opens : S → List (Cursor.Point S × Nat) → Prop}
    (honours : Cursor.Honours S opens) (fresh : ∀ c, opens c []) {size : Nat}
    (inside : ∀ c, holds c → Cursor.position c ≤ size) {start c : S} (h : holds start)
    {points : List (Cursor.Point S)} (reached : Cursor.Reached start points c) {grammar : Grammar R}
    (hgrammar : ∀ β rule, (grammar β rule).EachScan Scan.Cites) {parser : Parser R α}
    (cites : parser.EachScan Scan.Cites) : parser.AdvancesWithin grammar c size := by
  intro d result yields
  have opened := And.intro (fresh c) (And.intro (closed.reached h reached).1
    (List.forall_mem_nil fun mark : Cursor.Point S × Nat => valid mark.1))
  have run := yields.finishes
  obtain ⟨⟨-, held, -⟩, forwards⟩ := (closed.honours honours).finishes run opened
  refine ⟨forwards, inside d held, ?_⟩
  exact (closed.honours honours).places_within (fun c marks h => inside c h.2.1) run hgrammar cites opened

section

variable {T : Type} [Cursor T] [Inspectable S] [Inspectable T]

/-- To answer like a cursor with a closed property is a closed property. -/
theorem Cursor.Mirror.closed_of (m : Cursor.Mirror S T) {holds : T → Prop} {valid : Cursor.Point T → Prop}
    (closed : Cursor.Closed T holds valid) :
    Cursor.Closed S (fun c => ∃ d, m.alike c d ∧ holds d) fun point =>
      ∃ other, m.points point other ∧ valid other where
  peek := fun ⟨_, alike, held⟩ => ⟨_, (m.peek_alike alike).2, closed.peek held⟩
  read := fun ⟨_, alike, held⟩ => ⟨_, (m.read_alike alike).2, closed.read held⟩
  remaining := fun ⟨_, alike, held⟩ => ⟨_, (m.remaining_alike alike).2, closed.remaining held⟩
  sourceMap := fun ⟨_, alike, held⟩ => ⟨_, (m.sourceMap_alike alike).2, closed.sourceMap held⟩
  takeFault := fun ⟨_, alike, held⟩ => ⟨_, (m.takeFault_alike alike).2, closed.takeFault held⟩
  mark := fun ⟨_, alike, held⟩ => ⟨⟨_, (m.mark_alike alike).1, (closed.mark held).1⟩,
    _, (m.mark_alike alike).2, (closed.mark held).2⟩
  restore := fun ⟨_, alike, held⟩ ⟨_, points, known⟩ =>
    ⟨_, m.restore_alike alike points, closed.restore held known⟩
  release := fun ⟨_, alike, held⟩ ⟨_, points, known⟩ =>
    ⟨_, m.release_alike alike points, closed.release held known⟩

/-- To answer like another cursor in sessions is one. -/
theorem Cursor.Mirror.closed (m : Cursor.Mirror S T) :
    Cursor.Closed S (fun c => ∃ d, m.alike c d) fun point => ∃ other, m.points point other := by
  have anything : Cursor.Closed T (fun _ => True) fun _ => True :=
    ⟨id, id, id, id, id, fun _ => ⟨trivial, trivial⟩, fun _ _ => trivial, fun _ _ => trivial⟩
  simpa only [and_true] using m.closed_of anything

end

/-- A source that holds a text and never breaks down delivers that text as its document, or none of it. -/
theorem Bytes.Source.Holds.exists_decodes {source : Source} {text : String} (h : source.Holds text)
    (hbreakdown : source.breakdown = none) :
    ∃ chars, source.delivering.Decodes chars none ∧ chars.length ≤ text.length := by
  rw [Source.delivering]
  split
  · have empty : ({ source with bytes := #[] } : Source).Holds "" := by simp [Source.Holds]
    exact ⟨_, empty.decodes hbreakdown, Nat.zero_le _⟩
  · exact ⟨_, h.decodes hbreakdown, Nat.le_of_eq (String.length_toList)⟩

/-- Positions only move forward, and stay inside the document, whether a run succeeds or fails: the position
of the cursor, the position that a success claims, and the positions of all failures. This holds for runs
from every cursor that can be come by on a text, and on a source that holds a text and never faults, as long as
the scans of the parser and of the rules do not make up positions. -/
theorem positions_within_document (grammar : Grammar R)
    (hgrammar : ∀ β rule, (grammar β rule).EachScan Scan.Cites) (parser : Parser R α)
    (cites : parser.EachScan Scan.Cites) (text : String) :
    (∀ points c, Cursor.Reached (TextCursor.ofText text) points c →
      parser.AdvancesWithin grammar c text.length) ∧
    (∀ source : Source, source.Holds text → source.breakdown = none → source.Steady → ∀ capacity points c,
      Cursor.Reached (ByteCursor.ofSource source capacity) points c →
        parser.AdvancesWithin grammar c text.length) := by
  constructor
  · intro points c reached
    apply (TextCursor.closed_standing text.toList).advancesWithin TextCursor.honours
      (fun _ => List.forall_mem_nil _) _ _ reached hgrammar cites
    · rintro c ⟨index, inside, rfl⟩
      rwa [String.length_toList] at inside
    · exact ⟨0, Nat.zero_le _, TextCursor.ofText_eq_standing text⟩
  · intro source holds hbreakdown steady capacity points c reached
    obtain ⟨chars, hdoc, short⟩ := holds.exists_decodes hbreakdown
    obtain ⟨stands, serves, fresh⟩ := ByteCursor.exists_servesAnywhere hdoc steady
    apply (ByteCursor.indexed serves).closed.advancesWithin ByteCursor.honours
      (fun _ => List.forall_mem_nil _) _ _ reached hgrammar cites
    · rintro c ⟨d, alike⟩
      rw [(ByteCursor.indexed serves).position_eq alike]
      exact Nat.le_trans d.inside short
    · exact ⟨_, ByteCursor.follows_start fresh capacity⟩

/-- Runs that follow each other on a text, the second of which fails, and the grammar of JSON on bytes that come
one at a time, behind the first character. -/
theorem positions_within_document_json :
    (∃ c d, (literal "x").Yields Grammar.empty (TextCursor.ofText "xad") (.finished c (.success "x" 1)) ∧
      (choice (literal "ab") (literal "ac")).Yields Grammar.empty c (.finished d (.failure
        ⟨⟨"Expected `ab` but found `d`.", 1⟩, [⟨"Expected `ac` but found `d`.", 1⟩]⟩)) ∧
      1 ≤ Cursor.position d ∧ Cursor.position d ≤ 3) ∧
    let source : Source := { Source.ofBytes #[0x5b, 0x31, 0x2c, 0x5d] with chunk := some 1 }
    source.Holds "[1,]" ∧ (Json.document {}).AdvancesWithin Json.grammar
      (Cursor.read (ByteCursor.ofSource source 2)).2 4 := by
  constructor
  · have first : (literal "x").Yields Grammar.empty (TextCursor.ofText "xad")
        (.finished ⟨"xad", ['a', 'd'], 1, 1⟩ (.success "x" 1)) := ⟨20, rfl⟩
    have second : (choice (literal "ab") (literal "ac")).Yields Grammar.empty
        (⟨"xad", ['a', 'd'], 1, 1⟩ : TextCursor) (.finished ⟨"xad", ['a', 'd'], 1, 1⟩ (.failure
          ⟨⟨"Expected `ab` but found `d`.", 1⟩, [⟨"Expected `ac` but found `d`.", 1⟩]⟩)) := ⟨20, rfl⟩
    have reports := (reports_literal (R := NoRule) "ab").choice (reports_literal "ac")
    obtain ⟨onText, -⟩ := positions_within_document Grammar.empty (fun _ rule => nomatch rule)
      (choice (literal "ab") (literal "ac")) reports.cites "xad"
    obtain ⟨points, reached, -⟩ := Cursor.Reached.start.yields first
    obtain ⟨forwards, inside, -⟩ := onText points _ reached _ _ second
    exact ⟨_, _, first, second, forwards, inside⟩
  · obtain ⟨-, onSource⟩ := positions_within_document Json.grammar
      (fun β rule => (Json.reports_grammar β rule).cites) (Json.document {})
      (Json.reports_document {}).cites "[1,]"
    have holds : ({ Source.ofBytes #[0x5b, 0x31, 0x2c, 0x5d] with chunk := some 1 } : Source).Holds "[1,]" := by
      decide
    exact ⟨holds, onSource _ holds rfl ⟨fun _ => rfl, fun _ => rfl⟩ 2 [] _ Cursor.Reached.start.read⟩

end Parsing
