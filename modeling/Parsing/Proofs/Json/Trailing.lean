import Parsing.Proofs.Json.Document

/-!
# Documents with other input behind them

A document may be followed by other input if the options say so. What is read then is a document that ends where
the other input begins: if the text is cut there, it is read with the same value when nothing may follow. And
nothing that is read as a whole is read differently when other input might follow.
-/

namespace Parsing.Json

open Parsing.Parser

variable {R : Type → Type} {α : Type} {text : String} {v : Value}

/-- On a text a value is reported with what the run has left of the text. -/
theorem parse_eq_ok_iff {grammar : Grammar R} {budget : Nat} {parser : Parser R α} {c d : TextCursor}
    {parsed : Parsed α} :
    Parsing.parse grammar budget parser c = some (.ok parsed, d) ↔
      ∃ position, parser.run grammar budget c = some (.finished d (.success parsed.value position)) ∧
        parsed.remaining = d.remaining := by
  rw [Parsing.parse]
  constructor
  · intro reported
    cases ran : parser.run grammar budget c with
    | none => simp [ran] at reported
    | some halt =>
      rw [ran] at reported
      cases halt with
      | stopped why e => cases reported
      | finished e result =>
        cases result with
        | failure failures => cases reported
        | success value position =>
          cases reported
          exact ⟨position, rfl, rfl⟩
  · rintro ⟨position, ran, rest⟩
    rw [ran]
    cases parsed with
    | mk value remaining =>
      cases rest
      rfl

/-- What is accepted where other input may follow is a document, and the rest is left alone. -/
theorem isDocument_of_parse_trailing {rest : String} {budget : Nat} {d : TextCursor}
    (h : Parsing.parse grammar budget (document { allowTrailingInput := true }) (TextCursor.ofText text) =
      some (.ok ⟨v, rest⟩, d)) :
    ∃ front, text = front ++ rest ∧ IsDocument front.toList v := by
  obtain ⟨position, ran, hremaining⟩ := parse_eq_ok_iff.1 h
  rcases decides_surrounded (TextCursor.ofText text) with
    ⟨token, others, w, hrest, hdocument, _, accepted⟩ | ⟨_, _, rejected⟩
  · cases accepted.unique ⟨budget, ran⟩
    have hrest' : rest = ((TextCursor.ofText text).past token).remaining := hremaining
    refine ⟨String.ofList token, ?_, ?_⟩
    · rw [hrest', TextCursor.remaining, TextCursor.rest_past hrest, ← String.ofList_append, ← hrest]
      exact String.ofList_toList.symm
    · rwa [String.toList_ofList]
  · cases rejected.unique ⟨budget, ran⟩

/-- The two ways to read documents agree. If a value is reported where other input may follow, then the text in
front of that input is read with the same value when nothing may follow. If a text is read as a whole, then it
is read with the same value where other input may follow, and there is none. -/
theorem trailing_agrees_with_whole (text : String) :
    (∀ v rest,
      (∃ budget d, Parsing.parse grammar budget (document { allowTrailingInput := true })
        (TextCursor.ofText text) = some (.ok ⟨v, rest⟩, d)) →
      ∃ front, text = front ++ rest ∧ ∃ needed, ∀ budget, needed ≤ budget →
        parse {} budget (TextCursor.ofText front) = some (.ok v)) ∧
    (∀ v, (∃ budget, parse {} budget (TextCursor.ofText text) = some (.ok v)) →
      ∃ needed, ∀ budget, needed ≤ budget → ∃ d, Parsing.parse grammar budget
        (document { allowTrailingInput := true }) (TextCursor.ofText text) = some (.ok ⟨v, ""⟩, d)) := by
  constructor
  · rintro v rest ⟨budget, d, reported⟩
    obtain ⟨front, hfront, hdocument⟩ := isDocument_of_parse_trailing reported
    obtain ⟨_, accepted⟩ := document_accepts (c := TextCursor.ofText front) hdocument
    exact ⟨front, hfront, parse_of_yields accepted⟩
  · rintro v ⟨budget, reported⟩
    have hdocument : IsDocument (TextCursor.ofText text).rest v := isDocument_of_parse reported
    obtain ⟨position, needed, ran⟩ := surrounded_accepts hdocument
    have nothing : ((TextCursor.ofText text).past (TextCursor.ofText text).rest).remaining = "" := by
      rw [TextCursor.remaining, TextCursor.rest_past (List.append_nil _).symm, String.ofList_nil]
    refine ⟨needed, fun budget enough => ⟨_, parse_eq_ok_iff.2 ⟨position, ?_, nothing.symm⟩⟩⟩
    exact Trampoline.run_of_le _ enough ran

/-- A list with white space behind it, and a comma that is left alone. -/
theorem trailing_agrees_with_whole_comma :
    (∃ d, Parsing.parse grammar 400 (document { allowTrailingInput := true }) (TextCursor.ofText "[0] ,1") =
      some (.ok ⟨.array [.number (.integer 0)], ",1"⟩, d)) ∧
    ∃ front, "[0] ,1" = front ++ ",1" ∧ ∃ needed, ∀ budget, needed ≤ budget →
      parse {} budget (TextCursor.ofText front) = some (.ok (.array [.number (.integer 0)])) := by
  have reported : ∃ d, Parsing.parse grammar 400 (document { allowTrailingInput := true })
      (TextCursor.ofText "[0] ,1") = some (.ok ⟨.array [.number (.integer 0)], ",1"⟩, d) := ⟨_, rfl⟩
  obtain ⟨cut, -⟩ := trailing_agrees_with_whole "[0] ,1"
  exact ⟨reported, cut _ _ ⟨400, reported⟩⟩

end Parsing.Json
