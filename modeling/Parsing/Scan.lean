import Parsing.Cursor
import Parsing.Result

/-!
# Scans

A scan looks at finitely many characters and then decides: it reports a result, or it stops the
whole run. It is a tree of questions to the cursor, so it always comes to an end, and how long it may
get is up to the answers but not to the document: on every path the number of questions is fixed. A
function that reads on until the input ends is therefore no single scan. It is a `Parser.collect` of
scans of one character, or a rule of a grammar that calls itself.
-/

namespace Parsing

/-- Questions to a cursor, ending in a result or in a stop of the run. -/
inductive Scan (α : Type) where
  | finish (result : Result α)
  | stop (why : Stop)
  | peek (next : Option Char → Scan α)
  | read (next : Option Char → Scan α)
  | position (next : Nat → Scan α)

namespace Scan

variable {α : Type} {S : Type} [Cursor S]

/-- Ask the questions of a scan, up to its result or the stop of the run. -/
def run : Scan α → S → Except Stop (Result α) × S
  | finish result, c => (.ok result, c)
  | stop why, c => (.error why, c)
  | peek next, c =>
    let (char, c) := Cursor.peek c
    run (next char) c
  | read next, c =>
    let (char, c) := Cursor.read c
    run (next char) c
  | position next, c => run (next (Cursor.position c)) c

/-- Succeed where the cursor is. -/
def succeed (value : α) : Scan α := position fun here => finish (.success value here)

/-- Fail where the cursor is. -/
def fail (message : String) : Scan α := position fun here => finish (.fail message here)

/-- Consume the next character and succeed with a value behind it. -/
def advance (value : α) : Scan α := read fun _ => succeed value

/-- Consume `count` characters, whether they are there or not, and go on. -/
def skip (next : Scan α) : Nat → Scan α
  | 0 => next
  | count + 1 => read fun _ => skip next count

end Scan

end Parsing
