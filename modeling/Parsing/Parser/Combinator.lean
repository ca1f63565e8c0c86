import Parsing.Parser.Primitive

/-!
# Combinators

Sequences, alternatives and repetitions, all built from the operations of `Parser`. The repetitions
hold what they have collected as data, newest first, so any number of repetitions is safe. Only
`replicate` asks for room in advance.
-/

namespace Parsing.Parser

variable {R : Type → Type} {α β γ : Type}

/-- Run both and keep the second value. -/
def chain (first : Parser R α) (second : Parser R β) : Parser R β := bind first fun _ => second

/-- Run both and keep the first value. -/
def left (first : Parser R α) (second : Parser R β) : Parser R α :=
  bind first fun value => map (fun _ => value) second

/-- Run both and keep both values. -/
def pair (first : Parser R α) (second : Parser R β) : Parser R (α × β) :=
  bind first fun value => map (value, ·) second

/-- Run all three and keep the value of the inner one. -/
def enclosedBy (inner : Parser R α) (opening : Parser R β) (closing : Parser R γ) : Parser R α :=
  chain opening (left inner closing)

/-- The first alternative that does not fail where it started, in order. -/
def choices : List (Parser R α) → Parser R α
  | [] => fail "Expected one of no alternatives"
  | first :: rest => rest.foldl choice first

/-- The value of a parser, or nothing when it fails without consuming anything. -/
def optional (parser : Parser R α) : Parser R (Option α) := choice (map some parser) (unit none)

/-- The value of a parser, or nothing and no consumption when it fails. -/
def tryItem (parser : Parser R α) : Parser R (Option α) :=
  choice (attempt (map some parser)) (unit none)

/-- Repeat as often as possible. -/
def many (parser : Parser R α) : Parser R (List α) := collect (tryItem parser) []

/-- Repeat as often as possible, but at least once. -/
def many1 (parser : Parser R α) : Parser R (List α) :=
  bind parser fun first => collect (tryItem parser) [first]

/-- Repeat with a separator in between; a separator is consumed only together with its item. -/
def separatedBy (item : Parser R α) (separator : Parser R β) : Parser R (List α) :=
  bind (tryItem item) fun
    | some first => collect (tryItem (chain separator item)) [first]
    | none => unit []

/-- Repeat until the delimiter matches, which is tried first each time. -/
def manyTill (item : Parser R α) (delimiter : Parser R β) : Parser R (List α) :=
  collect (choice (map (fun _ => none) delimiter) (map some item)) []

/-- Repeat `count` more times, the values before being `newestFirst`. -/
def repeatAfter (parser : Parser R α) (newestFirst : List α) : Nat → Parser R (List α)
  | 0 => unit newestFirst.reverse
  | count + 1 => bind parser fun value => repeatAfter parser (value :: newestFirst) count

/-- Repeat exactly `count` times, with room for all values, of which each takes `size` bytes. -/
def replicate (size : Nat) (parser : Parser R α) (count : Nat) : Parser R (List α) :=
  withRoom (count * size) (repeatAfter parser [] count)

/-- The characters that count as white space: those with the Unicode property of that name. -/
def whitespaceChars : List Char :=
  ['\u0009', '\u000a', '\u000b', '\u000c', '\u000d', '\u0020', '\u0085', '\u00a0', '\u1680',
    '\u2000', '\u2001', '\u2002', '\u2003', '\u2004', '\u2005', '\u2006', '\u2007', '\u2008',
    '\u2009', '\u200a', '\u2028', '\u2029', '\u202f', '\u205f', '\u3000']

/-- Match one white space character. -/
def whitespace : Parser R Char := oneOf (String.ofList whitespaceChars)

end Parsing.Parser
