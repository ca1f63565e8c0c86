import Parsing.Scan

/-!
# Parsers

A parser is a description, built from scans by a few operations; running it is the business of
`Parsing.Parser.Machine`. As descriptions are data, statements about all parsers are proved by
induction. Recursion goes through named rules: `call` stands for the parser that a grammar gives to
the rule, and the grammar is supplied when the parser is run.

* `bind` runs a parser and then the one chosen by its value.
* `choice` runs the second parser only if the first fails where it started.
* `attempt` goes back to the start when its parser fails.
* `lookAhead` goes back to the start when its parser succeeds.
* `collect` repeats a parser until it yields nothing or consumes nothing.
-/

namespace Parsing

/-- Parsers with rules in `R`, producing values of type `α`. -/
inductive Parser (R : Type → Type) : Type → Type 1 where
  | scan {α : Type} (program : Scan α) : Parser R α
  | bind {α β : Type} (first : Parser R α) (next : α → Parser R β) : Parser R β
  | map {α β : Type} (f : α → β) (parser : Parser R α) : Parser R β
  | choice {α : Type} (first second : Parser R α) : Parser R α
  | attempt {α : Type} (parser : Parser R α) : Parser R α
  | lookAhead {α : Type} (parser : Parser R α) : Parser R α
  | call {α : Type} (rule : R α) : Parser R α
  | collect {α : Type} (item : Parser R (Option α)) (newestFirst : List α) : Parser R (List α)

/-- What each rule stands for. -/
def Grammar (R : Type → Type) : Type 1 := (α : Type) → R α → Parser R α

/-- The rules of a parser without recursion: there are none. -/
inductive NoRule : Type → Type

/-- The grammar without rules. -/
def Grammar.empty : Grammar NoRule := fun _ rule => nomatch rule

namespace Parser

variable {R Q : Type → Type} {α β : Type}

/-- Rename the rules of a parser. -/
def mapRules (f : (α : Type) → R α → Q α) {α : Type} : Parser R α → Parser Q α
  | scan program => scan program
  | bind first next => bind (mapRules f first) fun value => mapRules f (next value)
  | map g parser => map g (mapRules f parser)
  | choice first second => choice (mapRules f first) (mapRules f second)
  | attempt parser => attempt (mapRules f parser)
  | lookAhead parser => lookAhead (mapRules f parser)
  | call rule => call (f _ rule)
  | collect item newestFirst => collect (mapRules f item) newestFirst

/-- How a parser is shown. -/
def render (_ : Parser R α) : String := "Parser(..)"

end Parser

end Parsing
