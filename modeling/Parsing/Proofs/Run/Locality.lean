import Parsing.Proofs.Cursor.Watching
import Parsing.Proofs.Json.Standard
import Parsing.Proofs.Machine.Displacing
import Parsing.Proofs.Parser.Matching

/-!
# Runs depend only on what they look at

What stands in front of the place where a run begins plays no part in it, except that all positions are further
back by as much. And what stands behind plays no part either if the run does not look that far: it is enough that
the run never meets the end of the text when nothing stands behind.

So two runs of a parser on a text, with different things in front of it and something more behind it in the second
one, end in the same way, unless the first one meets the end. This is asked of a parser: that it takes positions
as they come.
-/

namespace Parsing

open Parsing.Parser

variable {R : Type → Type} {α : Type}

namespace TextCursor

/-- The offset behind a text. -/
def offsetBehind (front : String) : Nat := front.toList.foldl (fun offset char => offset + char.utf8Size) 0

/-- Cursors with more in front of their text. -/
def behind (front : String) : Cursor.Displacement TextCursor front.length where
  cursor c := ⟨front ++ c.document, c.rest, offsetBehind front + c.offset, front.length + c.position⟩
  point p := ⟨p.rest, offsetBehind front + p.offset, front.length + p.position⟩
  position_eq _ := rfl
  peek_eq _ := rfl
  read_eq c := by
    rcases c with ⟨document, _ | ⟨char, rest⟩, offset, position⟩
    · rfl
    · simp only [cursor_read, read, Nat.add_assoc]
  mark_eq _ := rfl
  restore_eq _ _ := rfl
  release_eq _ _ := rfl

/-- A cursor behind the first part of a text is one at the start of the second, with the first in front. -/
theorem past_ofText_append (front text : String) :
    (ofText (front ++ text)).past front.toList = (behind front).cursor (ofText text) := by
  have hrest : (front ++ text).toList.drop front.toList.length = text.toList := by
    rw [String.toList_append, List.drop_left]
  have hposition : 0 + front.toList.length = front.length + 0 := by
    rw [String.length_toList, Nat.zero_add, Nat.add_zero]
  simp only [past, ofText, behind, hrest, hposition, offsetBehind, Nat.add_zero]

end TextCursor

namespace Parser

/-- A run comes to an end of which only the result and the position of the cursor count. -/
def EndsAt (grammar : Grammar R) (parser : Parser R α) (c : TextCursor) (halt : Halt Nat α) : Prop :=
  ∃ final, parser.Yields grammar c final ∧ final.mapCursor TextCursor.position = halt

/-- Where a run ends is what is left of its end when the cursor is forgotten. -/
theorem endsAt_iff {grammar : Grammar R} {parser : Parser R α} {c : TextCursor} {halt : Halt Nat α} :
    parser.EndsAt grammar c halt ↔
      ∃ budget, (parser.run grammar budget c).map (.mapCursor TextCursor.position) = some halt := by
  simp only [EndsAt, Yields, Option.map_eq_some_iff]
  constructor
  · rintro ⟨final, ⟨budget, ran⟩, same⟩
    exact ⟨budget, final, ran, same⟩
  · rintro ⟨budget, final, ran, same⟩
    exact ⟨final, ⟨budget, ran⟩, same⟩

/-- A run that does not meet the end of its text ends at the same place with the same result on a longer text. -/
theorem endsAt_iff_of_unseen {grammar : Grammar R} {parser : Parser R α} {c d : TextCursor} {more : List Char}
    (h : c.Extended more d) (unseen : more = [] ∨ ∀ budget, (parser.watch grammar budget c).metEnd = false)
    (halt : Halt Nat α) : parser.EndsAt grammar c halt ↔ parser.EndsAt grammar d halt := by
  rw [endsAt_iff, endsAt_iff]
  exact exists_congr fun budget => by rw [TextCursor.run_of_unseen h unseen budget]

/-- A run that does not meet the end of its text comes to an end exactly if it does on a longer text. -/
theorem halts_iff_of_unseen {grammar : Grammar R} {parser : Parser R α} {c d : TextCursor} {more : List Char}
    (h : c.Extended more d) (unseen : more = [] ∨ ∀ budget, (parser.watch grammar budget c).metEnd = false) :
    parser.Halts grammar c ↔ parser.Halts grammar d := by
  constructor
  · rintro ⟨halt, ran⟩
    obtain ⟨final, ran', -⟩ := (endsAt_iff_of_unseen h unseen _).1 ⟨halt, ran, rfl⟩
    exact ⟨final, ran'⟩
  · rintro ⟨halt, ran⟩
    obtain ⟨final, ran', -⟩ := (endsAt_iff_of_unseen h unseen _).2 ⟨halt, ran, rfl⟩
    exact ⟨final, ran'⟩

/-- A run depends only on what it looks at. Two runs are compared, from behind `a` on the text `a ++ t`, and from
behind `b` on the text `b ++ t ++ x`. If `x` is empty, or if the first run never finds the end of its text, then
both are stopped for the same reason, or neither comes to an end, or both finish with the same result, and they
leave the cursor at the same place, but for the positions: these are the same when counted from where the runs
began, and so they differ by as much as `a` and `b` do in length. By `Standard.relative` this is so for all that
is built from the primitive parsers, and also for other scans if these claim no positions of their own. -/
theorem depends_on_what_is_seen (grammar : Grammar R)
    (hgrammar : ∀ β rule, (grammar β rule).EachScan Scan.Relative) (parser : Parser R α)
    (relative : parser.EachScan Scan.Relative) (a b t x : String)
    (unseen : x = "" ∨ ∀ budget,
      (parser.watch grammar budget ((TextCursor.ofText (a ++ t)).past a.toList)).metEnd = false) :
    let first := (TextCursor.ofText (a ++ t)).past a.toList
    let second := (TextCursor.ofText (b ++ t ++ x)).past b.toList
    (∃ why e f distance, parser.Yields grammar first (.stopped why e) ∧
      parser.Yields grammar second (.stopped why f) ∧
      e.position = a.length + distance ∧ f.position = b.length + distance) ∨
    (¬parser.Halts grammar first ∧ ¬parser.Halts grammar second) ∨
    ∃ e f, ∃ result : Result α, ∃ distance,
      parser.Yields grammar first (.finished e (result.displace a.length)) ∧
      parser.Yields grammar second (.finished f (result.displace b.length)) ∧
      e.position = a.length + distance ∧ f.position = b.length + distance := by
  intro first second
  -- what stands behind is added to the first text, and then both texts have something in front of `t ++ x`
  let start := TextCursor.ofText (t ++ x)
  have hsecond : second = (TextCursor.behind b).cursor start := by
    rw [← TextCursor.past_ofText_append, ← String.append_assoc]
  have extended : TextCursor.Extended x.toList first ((TextCursor.behind a).cursor start) := by
    rw [show first = (TextCursor.behind a).cursor (TextCursor.ofText t) from TextCursor.past_ofText_append a t]
    exact ⟨rfl, String.toList_append⟩
  have hunseen : x.toList = [] ∨ ∀ budget, (parser.watch grammar budget first).metEnd = false :=
    unseen.imp_left String.toList_eq_nil_iff.2
  rw [hsecond]
  by_cases halts : parser.Halts grammar start
  · obtain ⟨halt, ran⟩ := halts
    have behindA := ((TextCursor.behind a).yields_iff hgrammar relative start _).2 ⟨halt, ran, rfl⟩
    have behindB := ((TextCursor.behind b).yields_iff hgrammar relative start _).2 ⟨halt, ran, rfl⟩
    obtain ⟨final, onFirst, same⟩ := (endsAt_iff_of_unseen extended hunseen _).2 ⟨_, behindA, rfl⟩
    rcases halt with ⟨d, result⟩ | ⟨why, d⟩ <;> rcases final with ⟨e, other⟩ | ⟨why, e⟩
    · injection same with position sameResult
      subst sameResult
      exact .inr (.inr ⟨e, _, result, d.position, onFirst, behindB, position, rfl⟩)
    · cases same
    · cases same
    · injection same with reason position
      subst reason
      exact .inl ⟨_, e, _, d.position, onFirst, behindB, position, rfl⟩
  · refine .inr (.inl ⟨fun onFirst => halts ?_, fun onSecond => halts ?_⟩)
    · exact ((TextCursor.behind a).halts_iff hgrammar relative start).1
        ((halts_iff_of_unseen extended hunseen).1 onFirst)
    · exact ((TextCursor.behind b).halts_iff hgrammar relative start).1 onSecond

/-- A list with white space behind it and then a comma, which is where the run stops looking: what follows the
comma makes no difference, nor does what is in front. -/
theorem depends_on_what_is_seen_json :
    (∀ budget, ((Json.document { allowTrailingInput := true }).watch Json.grammar budget
      ((TextCursor.ofText ("x" ++ "[0] ,")).past "x".toList)).metEnd = false) ∧
    ∃ e f, ∃ result : Result Json.Value, ∃ distance,
      (Json.document { allowTrailingInput := true }).Yields Json.grammar
        ((TextCursor.ofText ("x" ++ "[0] ,")).past "x".toList) (.finished e (result.displace 1)) ∧
      (Json.document { allowTrailingInput := true }).Yields Json.grammar
        ((TextCursor.ofText ("" ++ "[0] ," ++ "1]")).past "".toList) (.finished f (result.displace 0)) ∧
      e.position = 1 + distance ∧ f.position = 0 + distance := by
  have watched : ∃ e result, (Json.document { allowTrailingInput := true }).run Json.grammar 400
      (WatchedCursor.ofCursor ((TextCursor.ofText ("x" ++ "[0] ,")).past "x".toList)) =
        some (.finished ⟨e, false⟩ result) := ⟨_, _, rfl⟩
  have finishes : ∃ e result, (Json.document { allowTrailingInput := true }).Yields Json.grammar
      ((TextCursor.ofText ("x" ++ "[0] ,")).past "x".toList) (.finished e result) := ⟨_, _, 400, rfl⟩
  obtain ⟨_, _, watched⟩ := watched
  obtain ⟨_, _, finishes⟩ := finishes
  have unseen := WatchedCursor.metEnd_watch watched rfl
  refine ⟨unseen, ?_⟩
  rcases depends_on_what_is_seen Json.grammar (fun β rule => (Json.standard_grammar β rule).relative)
    (Json.document { allowTrailingInput := true }) (Json.standard_document _).relative "x" "" "[0] ," "1]"
    (.inr unseen) with ⟨why, e, f, distance, stopped, -⟩ | ⟨diverges, -⟩ | ends
  · cases finishes.unique stopped
  · exact absurd ⟨_, finishes⟩ diverges
  · exact ends

end Parser

end Parsing
