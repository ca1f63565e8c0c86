import Parsing.Json.Document
import Parsing.Proofs.Json.Values

/-!
# Parsing documents

A text is either a document, and then its value is reported, or it is not, and then a mismatch is
reported. One or the other happens on every text, after finitely many steps.
-/

namespace Parsing.Json

open Parsing.Parser

variable {text : String} {v : Value}

/-- A value with white space around it, whatever follows. -/
theorem decides_surrounded (c : TextCursor) :
    (enclosedBy value whitespaces whitespaces).Decides grammar IsDocument c := by
  refine decides_whitespaces.chain fun w rest _ _ hw => ?_
  refine ((decides_value _).left fun _ => decides_whitespaces).mono ?_
  rintro _ value ⟨t, w', _, rfl, hvalue, hw'⟩
  exact .mk hw hvalue hw'

/-- A document is accepted as a whole, also where other input may follow it. -/
theorem surrounded_accepts {c : TextCursor} (h : IsDocument c.rest v) :
    (enclosedBy value whitespaces whitespaces).Accepts grammar c v c.rest := by
  obtain ⟨t, hrest⟩ : ∃ t, c.rest = t := ⟨_, rfl⟩
  rw [hrest] at h ⊢
  obtain ⟨hw, hvalue, hw'⟩ := h
  rename_i w t w'
  have hbefore := TextCursor.rest_past hrest
  have hbehind : ((c.past w).past t).rest = w' ++ [] := by
    rw [List.append_nil]
    exact TextCursor.rest_past hbefore
  have before : (whitespaces : Parser Rule (List Char)).Accepts grammar c w w :=
    whitespaces_accepts hw hrest (hvalue.noSpace w')
  have first := value_accepts hvalue hbefore (by simpa using delimited_nil.append_space hw')
  have behind : (whitespaces : Parser Rule (List Char)).Accepts grammar ((c.past w).past t) w' w' :=
    whitespaces_accepts hw' hbehind (notNext_nil _)
  exact before.chain (first.left behind)

/-- A document is accepted as a whole. -/
theorem document_accepts {c : TextCursor} (h : IsDocument c.rest v) :
    (document {}).Accepts grammar c v c.rest := by
  have last : (endOfFile : Parser Rule Unit).Accepts grammar (c.past c.rest) () [] :=
    endOfFile_accepts (TextCursor.rest_past (List.append_nil _).symm)
  have accepted : (document {}).Accepts grammar c v (c.rest ++ []) := (surrounded_accepts h).left last
  rwa [List.append_nil] at accepted

/-- Nothing but documents is accepted, and a text that is none is rejected. -/
theorem document_decides (c : TextCursor) :
    (∃ v, IsDocument c.rest v ∧ (document {}).Accepts grammar c v c.rest) ∨
      ∃ consumed, (document {}).Rejects grammar c consumed := by
  rcases decides_surrounded c with ⟨t, rest, v, hrest, hdocument, accepted⟩ | ⟨consumed, rejected⟩
  · have hpast := TextCursor.rest_past hrest
    cases rest with
    | nil =>
      rw [List.append_nil] at hrest
      exact .inl ⟨v, hrest ▸ hdocument, document_accepts (hrest ▸ hdocument)⟩
    | cons char rest =>
      exact .inr ⟨_, accepted.bind_rejects (endOfFile_rejects (by simp [hpast])).map⟩
  · exact .inr ⟨consumed, rejected.bind⟩

/-- A text stands for at most one value. -/
theorem IsDocument.unique {t : List Char} {v' : Value} (h : IsDocument t v) (h' : IsDocument t v') : v = v' := by
  obtain ⟨_, ran⟩ := document_accepts (c := ⟨"", t, 0, 0⟩) h
  obtain ⟨_, ran'⟩ := document_accepts (c := ⟨"", t, 0, 0⟩) h'
  injection ran.unique ran' with _ same
  injection same

/-- A run that comes to an end is reported, as soon as there are enough steps. -/
theorem parse_of_yields {options : Options} {result : Result Value} {c d : TextCursor}
    (h : (document options).Yields grammar c (.finished d result)) :
    ∃ needed, ∀ budget, needed ≤ budget →
      parse options budget c = some ((conclude d result).1.map Parsed.value) := by
  obtain ⟨needed, ran⟩ := h
  refine ⟨needed, fun budget hbudget => ?_⟩
  have ran' : (document options).run grammar budget c = some (.finished d result) :=
    Trampoline.run_of_le _ hbudget ran
  rw [parse, Parsing.parse, ran']
  rfl

/-- A value is reported only if the run ends with it. -/
theorem yields_of_parse {c : TextCursor} {budget : Nat} {v : Value}
    (h : parse {} budget c = some (.ok v)) :
    ∃ d position, (document {}).Yields grammar c (.finished d (.success v position)) := by
  rw [parse, Parsing.parse] at h
  cases ran : (document {}).run grammar budget c with
  | none => simp [ran] at h
  | some halt =>
    rw [ran] at h
    cases halt with
    | stopped why d => cases h
    | finished d result =>
      cases result with
      | failure failures => cases h
      | success value position =>
        cases h
        exact ⟨d, position, budget, ran⟩

/-- What is parsed is a document. -/
theorem isDocument_of_parse {text : String} {budget : Nat} {v : Value}
    (h : parse {} budget (TextCursor.ofText text) = some (.ok v)) : IsDocument text.toList v := by
  obtain ⟨d, position, ran⟩ := yields_of_parse h
  rcases document_decides (TextCursor.ofText text) with ⟨w, hdocument, _, accepted⟩ | ⟨_, _, rejected⟩
  · cases accepted.unique ran
    exact hdocument
  · cases rejected.unique ran

/-- On every text parsing comes to an end, with one outcome that more steps do not change. It is a value
exactly if the text is a document with that value, and otherwise it is a mismatch. -/
theorem parse_ofText_iff (text : String) : ∃ outcome,
    (∃ needed, ∀ budget, needed ≤ budget → parse {} budget (TextCursor.ofText text) = some outcome) ∧
    (∀ v, outcome = .ok v ↔ IsDocument text.toList v) ∧
    ((∀ v, ¬IsDocument text.toList v) → ∃ failures, outcome = .error (.mismatch failures)) := by
  have hrest : (TextCursor.ofText text).rest = text.toList := rfl
  rcases document_decides (TextCursor.ofText text) with ⟨v, hdocument, position, ran⟩ | ⟨consumed, failures, ran⟩
  · rw [hrest] at hdocument
    refine ⟨.ok v, parse_of_yields ran, fun v' => ⟨?_, fun h => ?_⟩, fun h => absurd hdocument (h v)⟩
    · rintro ⟨⟩
      exact hdocument
    · rw [h.unique hdocument]
  · refine ⟨_, parse_of_yields ran, fun v => ⟨fun h => ?_, fun h => ?_⟩, fun _ => ⟨_, rfl⟩⟩
    · cases h
    · obtain ⟨position, ran'⟩ := document_accepts (c := TextCursor.ofText text) h
      injection ran.unique ran' with _ same
      cases same

end Parsing.Json
