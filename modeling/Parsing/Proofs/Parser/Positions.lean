import Parsing.Cursor.Text
import Parsing.Proofs.Parser.Standard

/-!
# Positions in results

A success comes with a position, and so does every failure. How do these relate to the place where the run
began, and to the place where it has left the cursor?

If no scan makes up positions, then all positions in a result are at or behind the place where the run began,
and inside the document. If moreover successes of scans claim the place where they leave the cursor, so do the
successes of all parsers that do not end with a look-ahead. A look-ahead returns to where it began but passes
on the success as it was before, so that the position it claims is where it has looked to, and not where it
leaves the cursor.
-/

namespace Parsing

open Parsing.Parser

variable {R : Type → Type} {S : Type} [Cursor S] {α : Type}

namespace Parser

/-- No success of the parser is passed on by a look-ahead, apart from those of rules. -/
def Direct : {α : Type} → Parser R α → Prop
  | _, .scan _ => True
  | _, .bind _ next => ∀ value, (next value).Direct
  | _, .map _ parser => parser.Direct
  | _, .choice first second => first.Direct ∧ second.Direct
  | _, .attempt parser => parser.Direct
  | _, .lookAhead _ => False
  | _, .call _ => True
  | _, .collect _ _ => True

end Parser

namespace Cursor.Honours

variable {opens : S → List (Cursor.Point S × Nat) → Prop} {grammar : Grammar R} {parser : Parser R α}
  {c d : S} {result : Result α}

/-- A success claims the place where the run has left the cursor, or one behind it, and the latter only if it
is passed on by a look-ahead. -/
theorem claims (honours : Cursor.Honours S opens) (run : Finishes grammar parser c d result)
    (hgrammar : ∀ β rule, (grammar β rule).EachScan Scan.Stamps) (stamps : parser.EachScan Scan.Stamps)
    {marks : List (Cursor.Point S × Nat)} (opened : opens c marks) {value : α} {position : Nat}
    (success : result = .success value position) :
    Cursor.position d ≤ position ∧
      ((∀ β rule, (grammar β rule).Direct) → parser.Direct → position = Cursor.position d) := by
  induction run generalizing marks with
  | scan ran =>
    cases success
    have same := honours.position_of_stamps stamps (fun place known => by cases known) opened ran
    exact ⟨Nat.le_of_eq same.symm, fun _ _ => same⟩
  | @bind _ _ _ _ _ _ _ between _ _ first rest ihfirst ihrest =>
    obtain ⟨low, same⟩ := ihrest (stamps.2 between) (honours.finishes first opened).1 success
    exact ⟨low, fun all direct => same all (direct between)⟩
  | bindFailure first ih => cases success
  | @map _ _ f _ _ _ result part ih =>
    cases result with
    | success inner place =>
      cases success
      exact ih stamps opened rfl
    | failure failures => cases success
  | choice first settled ih =>
    obtain ⟨low, same⟩ := ih stamps.1 opened success
    exact ⟨low, fun all direct => same all direct.1⟩
  | @choiceSecond _ _ _ _ _ _ _ result first same rest ihfirst ihrest =>
    cases result with
    | success inner place =>
      obtain ⟨low, same⟩ := ihrest stamps.2 (honours.finishes first opened).1 success
      exact ⟨low, fun all direct => same all direct.2⟩
    | failure later => cases success
  | attempt part ih =>
    obtain ⟨low, same⟩ := ih stamps (honours.mark opened).1 success
    obtain ⟨-, stays⟩ := honours.release (honours.finishes part (honours.mark opened).1).1
    exact ⟨stays ▸ low, fun all direct => stays ▸ same all direct⟩
  | attemptFailure part ih => cases success
  | lookAhead part ih =>
    obtain ⟨marked, here⟩ := honours.mark opened
    obtain ⟨inside, forwards⟩ := honours.finishes part marked
    obtain ⟨-, back⟩ := honours.restore inside
    obtain ⟨low, -⟩ := ih stamps marked success
    -- the cursor is back at the start, while the claim is still about where the part has left it
    refine ⟨?_, fun _ direct => direct.elim⟩
    rw [back, ← here]
    exact Nat.le_trans forwards low
  | lookAheadFailure part ih => cases success
  | call body ih =>
    obtain ⟨low, same⟩ := ih (hgrammar _ _) opened success
    exact ⟨low, fun all _ => same all (all _ _)⟩
  | collectFailure round ih => cases success
  | collectNone round ih =>
    cases success
    exact ⟨Nat.le_refl _, fun _ _ => rfl⟩
  | collectLast round same ih =>
    cases success
    exact ⟨Nat.le_refl _, fun _ _ => rfl⟩
  | collectMore round moved rest ihround ihrest =>
    exact ihrest stamps (honours.finishes round opened).1 success

/-- The positions in a result are at or behind the place where the run began, and inside the document. -/
theorem places_within (honours : Cursor.Honours S opens) {size : Nat}
    (inside : ∀ c marks, opens c marks → Cursor.position c ≤ size)
    (run : Finishes grammar parser c d result)
    (hgrammar : ∀ β rule, (grammar β rule).EachScan Scan.Cites) (cites : parser.EachScan Scan.Cites)
    {marks : List (Cursor.Point S × Nat)} (opened : opens c marks) :
    ∀ place ∈ result.places, Cursor.position c ≤ place ∧ place ≤ size := by
  have ends {α : Type} {parser : Parser R α} {c d : S} {result : Result α}
      (run : Finishes grammar parser c d result) {marks : List (Cursor.Point S × Nat)}
      (opened : opens c marks) : Cursor.position c ≤ Cursor.position d ∧ Cursor.position d ≤ size := by
    obtain ⟨after, forwards⟩ := honours.finishes run opened
    exact ⟨forwards, inside d marks after⟩
  induction run generalizing marks with
  | @scan _ program c d result ran =>
    intro place known
    have after := (honours.scan program opened).1
    rw [ran] at after
    obtain ⟨low, high⟩ := honours.places_of_cites cites (Nat.le_refl _) (List.forall_mem_nil _) opened ran
      place known
    exact ⟨low, Nat.le_trans high (inside d marks after)⟩
  | @bind _ _ _ _ _ _ _ between _ _ first rest ihfirst ihrest =>
    intro place known
    obtain ⟨low, high⟩ := ihrest (cites.2 between) (honours.finishes first opened).1 place known
    exact ⟨Nat.le_trans (ends first opened).1 low, high⟩
  | bindFailure first ih => exact ih cites.1 opened
  | map part ih =>
    rw [Result.places_map]
    exact ih cites opened
  | choice first settled ih => exact ih cites.1 opened
  | choiceSecond first same rest ihfirst ihrest =>
    intro place known
    rcases Result.mem_places_after known with earlier | later
    · exact ihfirst cites.1 opened place earlier
    · obtain ⟨low, high⟩ := ihrest cites.2 (honours.finishes first opened).1 place later
      exact ⟨same ▸ low, high⟩
  | attempt part ih =>
    obtain ⟨marked, here⟩ := honours.mark opened
    exact here ▸ ih cites marked
  | attemptFailure part ih =>
    obtain ⟨marked, here⟩ := honours.mark opened
    exact here ▸ ih cites marked
  | lookAhead part ih =>
    obtain ⟨marked, here⟩ := honours.mark opened
    exact here ▸ ih cites marked
  | lookAheadFailure part ih =>
    obtain ⟨marked, here⟩ := honours.mark opened
    exact here ▸ ih cites marked
  | call body ih => exact ih (hgrammar _ _) opened
  | collectFailure round ih => exact ih cites opened
  | collectNone round ih => exact List.forall_mem_singleton.2 (ends round opened)
  | collectLast round same ih => exact List.forall_mem_singleton.2 (ends round opened)
  | collectMore round moved rest ihround ihrest =>
    intro place known
    obtain ⟨low, high⟩ := ihrest cites (honours.finishes round opened).1 place known
    exact ⟨Nat.le_trans (ends round opened).1 low, high⟩

end Cursor.Honours

namespace Parser

/-- What a success claims about its position, on a cursor that honours its marks, if the scans that the parser
and the rules are made of claim the place where they leave the cursor.

* A success claims the place where the cursor is left or one behind it, and exactly that place if it is not
  passed on by a look-ahead.
* A look-ahead that succeeds leaves the cursor where it began, but claims what its parser has claimed. This
  agrees with where the cursor is only if its parser has consumed nothing and claims so. -/
theorem success_positions {opens : S → List (Cursor.Point S × Nat) → Prop}
    (honours : Cursor.Honours S opens) (grammar : Grammar R)
    (hgrammar : ∀ β rule, (grammar β rule).EachScan Scan.Stamps) (parser : Parser R α)
    (stamps : parser.EachScan Scan.Stamps) {c : S} {marks : List (Cursor.Point S × Nat)}
    (opened : opens c marks) :
    (∀ d value position, parser.Yields grammar c (.finished d (.success value position)) →
      Cursor.position d ≤ position ∧
        ((∀ β rule, (grammar β rule).Direct) → parser.Direct → position = Cursor.position d)) ∧
    (∀ d value position, (lookAhead parser).Yields grammar c (.finished d (.success value position)) →
      Cursor.position d = Cursor.position c ∧ ∃ e,
        parser.Yields grammar (Cursor.mark c).2 (.finished e (.success value position)) ∧
        (position = Cursor.position d ↔
          Cursor.position e = Cursor.position c ∧ position = Cursor.position e)) := by
  constructor
  · intro d value position yields
    exact honours.claims yields.finishes hgrammar stamps opened rfl
  · intro d value position yields
    obtain ⟨⟨e, inner | failures⟩ | ⟨why, e⟩, part, returned⟩ := yields_lookAhead_iff.1 yields
    · cases returned
      obtain ⟨marked, here⟩ := honours.mark opened
      have back : Cursor.position (Cursor.restore e (Cursor.mark c).1) = Cursor.position c :=
        honours.position_restore part.finishes opened
      have forwards : Cursor.position c ≤ Cursor.position e :=
        here ▸ (honours.finishes part.finishes marked).2
      obtain ⟨low, -⟩ := honours.claims part.finishes hgrammar stamps marked rfl
      refine ⟨back, e, part, ?_⟩
      rw [back]
      omega
    · cases returned
    · cases returned

/-- A look-ahead at two characters claims the place behind them from where it began. Without the look-ahead
the claim is right. -/
theorem success_positions_lookAhead :
    (∃ d, (lookAhead (literal "ab")).Yields Grammar.empty (TextCursor.ofText "abc")
        (.finished d (.success "ab" 2)) ∧ Cursor.position d = 0) ∧
    ∃ d, (literal "ab").Yields Grammar.empty (TextCursor.ofText "abc") (.finished d (.success "ab" 2)) ∧
      Cursor.position d = 2 := by
  obtain ⟨direct, ahead⟩ := success_positions TextCursor.honours Grammar.empty (fun _ rule => nomatch rule)
    (literal "ab") (reports_literal "ab").stamps (c := TextCursor.ofText "abc") (List.forall_mem_nil _)
  have looked : (lookAhead (literal "ab")).Yields Grammar.empty (TextCursor.ofText "abc")
      (.finished (TextCursor.ofText "abc") (.success "ab" 2)) := ⟨20, rfl⟩
  have matched : (literal "ab").Yields Grammar.empty (TextCursor.ofText "abc")
      (.finished ⟨"abc", ['c'], 2, 2⟩ (.success "ab" 2)) := ⟨20, rfl⟩
  refine ⟨⟨_, looked, (ahead _ _ _ looked).1⟩, _, matched, ?_⟩
  exact ((direct _ _ _ matched).2 (fun _ rule => nomatch rule) trivial).symm

end Parser

end Parsing
