import Parsing.Json.Document
import Parsing.Proofs.Parser.Standard

/-!
# The grammar of JSON is built from primitive parsers

So are documents. This includes the character of a string that stands for itself, as it looks at one character
and decides by it. Nothing in the grammar stops a run, as there is always room for four digits. So what holds of
parsers in general that report no positions of their own holds of the failures that are reported for documents.
-/

namespace Parsing.Json

open Parsing.Parser

variable {R : Type → Type}

/-- Numbers are read by a standard parser. -/
theorem standard_numeral : (numeral : Parser R Numeral).Standard fun _ => False := by
  have digit : (digit : Parser R Char).Standard fun _ => False := standard_oneOf _
  have integer : (integerPart : Parser R (List Char)).Standard fun _ => False := by
    apply Standard.choice
    · apply (standard_literal "0").chain (digit.lookAhead.optional.bind _)
      intro found
      cases found with
      | none => exact standard_unit _
      | some char => exact standard_fail _
    · exact (standard_oneOf _).bind fun first => digit.many.map (first :: ·)
  have fraction : (fractionPart : Parser R (List Char)).Standard fun _ => False := (standard_literal ".").chain digit.many1
  have exponent : (exponentPart : Parser R NumeralExponent).Standard fun _ => False :=
    (standard_oneOf _).chain (((standard_oneOf _).optional.pair digit.many1).map _)
  have sign : (map Option.isSome (optional (literal "-")) : Parser R Bool).Standard fun _ => False :=
    (standard_literal "-").optional.map _
  exact (((sign.pair integer).pair fraction.optional).pair exponent.optional).map _

/-- A character that stands for itself is read by a standard parser. -/
theorem standard_unescaped : (unescaped : Parser R Char).Standard fun _ => False := by
  apply standard_peek
  intro found
  cases found with
  | none => exact .fails _
  | some char => exact .ite (.fails _) (.ite (.fails _) (.read fun _ => .succeeds char))

/-- Strings are read by a standard parser, escapes and surrogates included. -/
theorem standard_string : (string : Parser R String).Standard fun _ => False := by
  have code (value : UInt32) : (charOfCode value : Parser R Char).Standard fun _ => False := by
    rw [charOfCode]
    split
    · exact standard_unit _
    · exact standard_fail _
  have unit : (hexUnit : Parser R UInt32).Standard fun _ => False :=
    ((standard_oneOf _).replicate (.inl (by decide))).map _
  have unicode : (unicodeEscape : Parser R Char).Standard fun _ => False := by
    apply ((standard_literal "u").chain unit).bind
    intro high
    split
    · apply ((standard_literal "\\u").chain unit).bind
      intro low
      split
      · exact code _
      · exact standard_fail _
    · exact code high
  have escaped : (escaped : Parser R Char).Standard fun _ => False := by
    apply (standard_literal "\\").chain (Standard.choices _)
    rw [List.forall_mem_cons, List.forall_mem_map]
    exact ⟨unicode, fun letter _ => (standard_literal _).chain (standard_unit letter.2)⟩
  exact (standard_literal "\"").chain
    (((escaped.choice standard_unescaped).manyTill (standard_literal "\"")).map _)

/-- White space is read by a standard parser. -/
theorem standard_whitespaces : (whitespaces : Parser R (List Char)).Standard fun _ => False := (standard_oneOf _).many

/-- A comma with white space around it is read by a standard parser. -/
theorem standard_separator : (separator : Parser R (List Char)).Standard fun _ => False :=
  standard_whitespaces.chain ((standard_literal ",").chain standard_whitespaces)

/-- Values are read by a standard parser that calls the rules for arrays and objects. -/
theorem standard_value : value.Standard fun _ => False := by
  apply Standard.choices
  simp only [List.forall_mem_cons, List.not_mem_nil, false_implies, implies_true, and_true]
  refine ⟨?_, ?_, ?_, ?_, ?_, ?_⟩
  · exact (standard_numeral.map _).map _
  · exact standard_string.map _
  · exact (standard_literal "null").map _
  · exact (standard_call _).map _
  · exact (standard_call _).map _
  · exact ((standard_literal "true").map _).choice ((standard_literal "false").map _)

/-- The rules stand for standard parsers. -/
theorem standard_grammar (β : Type) (rule : Rule β) : (grammar β rule).Standard fun _ => False := by
  cases rule with
  | array =>
    exact (standard_value.separatedBy standard_separator).enclosedBy
      ((standard_literal _).chain standard_whitespaces) (standard_whitespaces.chain (standard_literal _))
  | object =>
    have member : member.Standard fun _ => False :=
      standard_string.bind fun key =>
        (standard_whitespaces.chain ((standard_literal ":").chain standard_whitespaces)).chain
          (standard_value.map (key, ·))
    exact ((member.separatedBy standard_separator).enclosedBy
      ((standard_literal _).chain standard_whitespaces)
      (standard_whitespaces.chain (standard_literal _))).map _

/-- Documents are read by a standard parser, whatever the options are. -/
theorem standard_document (options : Options) : (document options).Standard fun _ => False := by
  have surrounded : (enclosedBy value whitespaces whitespaces).Standard fun _ => False :=
    standard_value.enclosedBy standard_whitespaces standard_whitespaces
  rw [document]
  split
  · exact surrounded
  · exact surrounded.left standard_endOfFile

/-- Nothing in the rules of the grammar stops a run. -/
theorem avoids_grammar (why : Stop) (S : Type) [Cursor S] (β : Type) (rule : Rule β) :
    (grammar β rule).Avoids why S :=
  (standard_grammar β rule).avoids id

/-- Nothing in the parser for documents stops a run. -/
theorem avoids_document (why : Stop) (S : Type) [Cursor S] (options : Options) :
    (document options).Avoids why S :=
  (standard_document options).avoids id

/-- The rules of the grammar report no positions of their own. -/
theorem reports_grammar (β : Type) (rule : Rule β) : (grammar β rule).Reports :=
  (standard_grammar β rule).reports

/-- The parser for documents reports no positions of its own. -/
theorem reports_document (options : Options) : (document options).Reports :=
  (standard_document options).reports

end Parsing.Json
