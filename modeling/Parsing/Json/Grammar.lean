import Parsing.Json.Number
import Parsing.Parser.Combinator
import Parsing.Text.Quoted

/-!
# The grammar of JSON

Parsers for values and documents. Arrays and objects are rules, because values occur in them. White
space is any run of Unicode white space, and is accepted around values, separators and brackets. A
failing escape sequence is reported, not backtracked, because the closing quote is tried first.
-/

namespace Parsing.Json

/-- The rules of the grammar. -/
inductive Rule : Type → Type where
  | array : Rule (List Value)
  | object : Rule Members

variable {R : Type → Type}

/-! ## Numbers -/

/-- A decimal digit. -/
def digit : Parser R Char := .oneOf "0123456789"

/-- One digit or more. -/
def digits : Parser R (List Char) := .many1 digit

/-- The integer part of a number: zero, or digits that do not start with zero. -/
def integerPart : Parser R (List Char) :=
  let zero : Parser R (List Char) :=
    .chain (.literal "0") <| .bind (.optional (.lookAhead digit)) fun
      | some _ => .fail "Found leading zero in json number"
      | none => .unit ['0']
  let nonzero : Parser R (List Char) :=
    .bind (.oneOf "123456789") fun first => .map (first :: ·) (.many digit)
  .choice zero nonzero

/-- The fraction of a number. -/
def fractionPart : Parser R (List Char) := .chain (.literal ".") digits

/-- The exponent of a number. -/
def exponentPart : Parser R NumeralExponent :=
  .chain (.oneOf "eE") <|
    .map (fun parts => ⟨parts.1 = some '-', parts.2⟩) (.pair (.optional (.oneOf "+-")) digits)

/-- The text of a number. -/
def numeral : Parser R Numeral :=
  let sign : Parser R Bool := .map Option.isSome (.optional (.literal "-"))
  .map (fun (((negative, integer), fraction), exponent) => ⟨negative, integer, fraction, exponent⟩)
    (.pair (.pair (.pair sign integerPart) (.optional fractionPart)) (.optional exponentPart))

/-- A number. -/
def number : Parser R Number := .map Numeral.toNumber numeral

/-! ## Strings -/

/-- A character of a string that stands for itself. -/
def unescaped : Parser R Char :=
  .scan (.position fun start => .peek fun
    | some char =>
      if char < ' ' then
        .finish (.fail s!"Unescaped control character {Text.quoteChar char} in string" start)
      else if char = '"' ∨ char = '\\' then .finish (.fail s!"Unexpected `{char}` in string" start)
      else .advance char
    | none => .finish (.fail "Expected string character but found end of string" start))

/-- The value of a hexadecimal digit. -/
def hexValue (char : Char) : UInt32 :=
  if '0' ≤ char ∧ char ≤ '9' then char.val - '0'.val
  else if 'a' ≤ char ∧ char ≤ 'f' then char.val - 'a'.val + 10
  else if 'A' ≤ char ∧ char ≤ 'F' then char.val - 'A'.val + 10
  else 0

/-- The unit of UTF-16 that hexadecimal digits write, in words of 32 bits. -/
def unitOfDigits (digits : List Char) : UInt32 :=
  digits.foldl (fun unit char => unit * 16 + hexValue char) 0

/-- How many bytes a character takes. -/
def charSize : Nat := 4

/-- Four hexadecimal digits, a unit of UTF-16. -/
def hexUnit : Parser R UInt32 :=
  .map unitOfDigits (.replicate charSize (.oneOf "0123456789abcdefABCDEF") 4)

/-- A unit of UTF-16 as it is named in messages. -/
def unitName (unit : UInt32) : String := String.ofList (Text.hexDigits4 unit.toNat)

/-- The character of a code point, unless it is a surrogate. -/
def charOfCode (code : UInt32) : Parser R Char :=
  if valid : code.isValidChar then .unit ⟨code, valid⟩
  else .fail s!"Invalid unicode escape `{unitName code}`"

/-- The code point that a pair of surrogates stands for, in words of 32 bits. -/
def combineSurrogates (high low : UInt32) : UInt32 :=
  0x10000 + ((high - 0xd800) <<< (10 : UInt32)) + (low - 0xdc00)

/-- A character by its units of UTF-16, after the backslash. -/
def unicodeEscape : Parser R Char :=
  .bind (.chain (.literal "u") hexUnit) fun high =>
    if 0xd800 ≤ high ∧ high < 0xdc00 then
      .bind (.chain (.literal "\\u") hexUnit) fun low =>
        if 0xdc00 ≤ low ∧ low < 0xe000 then charOfCode (combineSurrogates high low)
        else .fail s!"Expected low surrogate but found `{unitName low}`"
    else charOfCode high

/-- The escapes of one letter and the characters they stand for. -/
def simpleEscapes : List (Char × Char) :=
  [('b', '\x08'), ('f', '\x0c'), ('n', '\n'), ('r', '\r'), ('t', '\t'), ('"', '"'), ('\\', '\\'),
    ('/', '/')]

/-- An escaped character. -/
def escaped : Parser R Char :=
  .chain (.literal "\\") <| .choices <|
    unicodeEscape :: simpleEscapes.map fun (letter, char) =>
      .chain (.literal (String.singleton letter)) (.unit char)

/-- A string. -/
def string : Parser R String :=
  .chain (.literal "\"") <|
    .map String.ofList (.manyTill (.choice escaped unescaped) (.literal "\""))

/-! ## Values -/

/-- White space, which may be missing. -/
def whitespaces : Parser R (List Char) := .many .whitespace

/-- A comma with white space around it. -/
def separator : Parser R (List Char) := .chain whitespaces (.chain (.literal ",") whitespaces)

/-- A truth value. -/
def boolean : Parser R Value :=
  .choice (.map (fun _ => .bool true) (.literal "true"))
    (.map (fun _ => .bool false) (.literal "false"))

/-- A value without white space around it. -/
def value : Parser Rule Value :=
  .choices
    [.map .number number,
      .map .string string,
      .map (fun _ => .null) (.literal "null"),
      .map .array (.call .array),
      .map .object (.call .object),
      boolean]

/-- The items of an array, in brackets. -/
def array : Parser Rule (List Value) :=
  .enclosedBy (.separatedBy value separator) (.chain (.literal "[") whitespaces)
    (.chain whitespaces (.literal "]"))

/-- A key and its value. -/
def member : Parser Rule (String × Value) :=
  .bind string fun key =>
    .chain (.chain whitespaces (.chain (.literal ":") whitespaces)) (.map (key, ·) value)

/-- The members of an object, in braces. -/
def object : Parser Rule Members :=
  .map Members.ofList <|
    .enclosedBy (.separatedBy member separator) (.chain (.literal "\x7b") whitespaces)
      (.chain whitespaces (.literal "\x7d"))

/-- What the rules stand for. -/
def grammar : Grammar Rule := fun _ rule =>
  match rule with
  | .array => array
  | .object => object

end Parsing.Json
