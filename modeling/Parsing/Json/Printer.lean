import Parsing.Binary64.Shortest
import Parsing.Json.Value
import Parsing.Text.Quoted

/-!
# Printing JSON values

The compact form of a value, without white space. Floating-point numbers are written without an
exponent: whole ones below `10 ^ 16` in full with one decimal place, others by their shortest
decimal. What JSON cannot express is written as `null`. In strings only quotes, backslashes and
control characters are escaped.
-/

namespace Parsing.Json

/-- The magnitude of a finite floating-point number. -/
def floatMagnitude (rank : Nat) : String :=
  let units := Binary64.units rank
  let one := Binary64.unitsPerOne
  if units % one = 0 ∧ units < Nat.pow 10 16 * one then toString (units / one) ++ ".0"
  else (Binary64.shortest rank).render

/-- The text of a number. -/
def Number.render : Number → String
  | integer value => toString value.toInt
  | float value =>
    if value.isFinite then
      (if value.negative then "-" else "") ++ floatMagnitude value.rank
    else "null"

/-- The characters that stand for one character in a string. -/
def escapeChar (char : Char) : List Char :=
  if char = '"' then ['\\', '"']
  else if char = '\\' then ['\\', '\\']
  else if char = '\n' then ['\\', 'n']
  else if char = '\r' then ['\\', 'r']
  else if char = '\t' then ['\\', 't']
  else if char = '\x08' then ['\\', 'b']
  else if char = '\x0c' then ['\\', 'f']
  else if char < ' ' then '\\' :: 'u' :: Text.hexDigits4 char.toNat
  else [char]

/-- A string in quotes. -/
def quote (text : String) : List Char := '"' :: text.toList.flatMap escapeChar ++ ['"']

namespace Value

mutual

/-- The characters of a value. -/
def chars : Value → List Char
  | null => "null".toList
  | bool true => "true".toList
  | bool false => "false".toList
  | number value => value.render.toList
  | string text => quote text
  | array [] => "[]".toList
  | array (item :: items) => '[' :: chars item ++ charsItems items
  | object .nil => "\x7b\x7d".toList
  | object (.cons key item later _) => '\x7b' :: quote key ++ ':' :: chars item ++ charsMembers later

/-- The further items of an array and its end. -/
def charsItems : List Value → List Char
  | [] => [']']
  | item :: items => ',' :: chars item ++ charsItems items

/-- The further members of an object and its end. -/
def charsMembers {bound : Option String} : MembersAfter bound → List Char
  | .nil => ['\x7d']
  | .cons key item later _ => ',' :: quote key ++ ':' :: chars item ++ charsMembers later

end

/-- The compact form of a value. -/
def render (value : Value) : String := String.ofList value.chars

end Value

end Parsing.Json
