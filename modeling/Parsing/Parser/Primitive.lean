import Parsing.Parser

/-!
# Primitive parsers

Parsers that look at single characters. All of them report failures at the position where they
started. The exact match `literal` and the block `characters` give back what they consumed when
they fail; the others consume nothing unless they succeed. Room for a block is asked for at once, so
a block that no allocation has room for stops the run before anything is read.
-/

namespace Parsing.Parser

variable {R : Type → Type} {α : Type}

/-- Succeed without consuming anything. -/
def unit (value : α) : Parser R α := scan (.succeed value)

/-- Fail without consuming anything. -/
def fail (message : String) : Parser R α := scan (.fail message)

/-- Give up the whole run. -/
def abandon : Parser R α := scan (.stop .abandoned)

/-- The most bytes that can be asked for at once, on a machine with addresses of 64 bits. -/
def maxRoom : Nat := 9223372036854775807

/-- Ask for room for so many bytes, and then run a parser. More than `maxRoom` are asked for in vain,
which stops the run. Whether the machine has the room that may be asked for is not our business. -/
def withRoom (bytes : Nat) (parser : Parser R α) : Parser R α :=
  if bytes ≤ maxRoom then parser else scan (.stop .overflow)

/-- Where there is room nothing is noticed of it. -/
theorem withRoom_of_le {bytes : Nat} (fits : bytes ≤ maxRoom) (parser : Parser R α) :
    parser.withRoom bytes = parser := if_pos fits

/-- Where there is no room the run stops. -/
theorem withRoom_of_lt {bytes : Nat} (lacks : maxRoom < bytes) (parser : Parser R α) :
    parser.withRoom bytes = scan (.stop .overflow) := if_neg (Nat.not_le.2 lacks)

/-- How a missing character is described. -/
def foundText : Option Char → String
  | some c => s!"`{c}`"
  | none => "end of string"

/-- The message of an exact match that met `found` instead. -/
def literalMessage (expected : String) : Option Char → String
  | some c => s!"Expected `{expected}` but found `{c}`."
  | none => s!"Expected `{expected}` but found end of string"

/-- Consume `chars` one after the other, then succeed with `expected`. -/
def matchChars (expected : String) (start : Nat) : List Char → Scan String
  | [] => .succeed expected
  | char :: rest => .peek fun found =>
    if found = some char then .read fun _ => matchChars expected start rest
    else .finish (.fail (literalMessage expected found) start)

/-- Match exactly the characters of `expected`. -/
def literal (expected : String) : Parser R String :=
  attempt (scan (.position fun start => matchChars expected start expected.toList))

/-- Match one character that `accepts`; otherwise fail with the message for what was found. -/
def satisfy (accepts : Char → Bool) (message : Option Char → String) : Parser R Char :=
  scan (.position fun start => .peek fun
    | some char =>
      if accepts char then .advance char else .finish (.fail (message (some char)) start)
    | none => .finish (.fail (message none) start))

/-- Match one of the characters of `chars`. -/
def oneOf (chars : String) : Parser R Char :=
  satisfy (chars.toList.contains ·) fun found => s!"Expected one of `{chars}` but found {foundText found}"

/-- Match one character that is not among `chars`. -/
def noneOf (chars : String) : Parser R Char :=
  satisfy (!chars.toList.contains ·) fun found =>
    s!"Expected none of `{chars}` but found {foundText found}"

/-- Consume `count` more characters, the ones before being `newestFirst`. -/
def takeChars (start : Nat) : Nat → List Char → Scan String
  | 0, newestFirst => .succeed (String.ofList newestFirst.reverse)
  | count + 1, newestFirst => .read fun
    | some char => takeChars start count (char :: newestFirst)
    | none => .finish (.fail "Expected character but found end of string" start)

/-- Match any `count` characters, with room for one byte for each. -/
def characters (count : Nat) : Parser R String :=
  attempt (withRoom count (scan (.position fun start => takeChars start count [])))

/-- Match the end of the document. -/
def endOfFile : Parser R Unit :=
  scan (.position fun start => .peek fun
    | none => .finish (.success () start)
    | some char => .finish (.fail s!"Expected end-of-file but found `{char}`" start))

end Parsing.Parser
