import Parsing.Json.Number
import Parsing.Proofs.Parser.Combinators

/-!
# The syntax of JSON

Which texts are documents, and which values they stand for, without a parser. Every predicate relates
the characters of a part of a document to what the part stands for. A number is whole only if it is
written so and fits into 64 bits; otherwise it is the floating-point number that its text is read as.
A key that is given several times in an object has the last of its values.
-/

namespace Parsing.Json

/-- White space, which may be missing. -/
def IsSpace (t : List Char) : Prop := ∀ char ∈ t, char ∈ Parser.whitespaceChars

/-! ## Numbers -/

/-- One decimal digit or more. -/
def IsDigits (t : List Char) : Prop := t ≠ [] ∧ ∀ char ∈ t, char.isDigit = true

/-- The sign of a number, with whether it is negative. -/
inductive IsSign : List Char → Bool → Prop
  | none : IsSign [] false
  | minus : IsSign ['-'] true

/-- The integer part of a number: zero, or digits that do not start with zero. -/
inductive IsInteger : List Char → Prop
  | zero : IsInteger ['0']
  | nonzero {first : Char} {rest : List Char} (hfirst : first.isDigit = true) (hzero : first ≠ '0')
      (hrest : ∀ char ∈ rest, char.isDigit = true) : IsInteger (first :: rest)

/-- The fraction of a number, which may be missing, with its digits. -/
inductive IsFraction : List Char → Option (List Char) → Prop
  | none : IsFraction [] none
  | some {digits : List Char} (hdigits : IsDigits digits) : IsFraction ('.' :: digits) (some digits)

/-- The sign of an exponent, with whether it is negative. -/
inductive IsExponentSign : List Char → Bool → Prop
  | none : IsExponentSign [] false
  | plus : IsExponentSign ['+'] false
  | minus : IsExponentSign ['-'] true

/-- The exponent of a number, which may be missing. -/
inductive IsExponent : List Char → Option NumeralExponent → Prop
  | none : IsExponent [] none
  | some {letter : Char} {sign digits : List Char} {negative : Bool} (hletter : letter = 'e' ∨ letter = 'E')
      (hsign : IsExponentSign sign negative) (hdigits : IsDigits digits) :
      IsExponent (letter :: (sign ++ digits)) (some ⟨negative, digits⟩)

/-- The text of a number, with its parts. -/
inductive IsNumeral : List Char → Numeral → Prop
  | mk {sign integer fraction exponent : List Char} {negative : Bool} {places : Option (List Char)}
      {power : Option NumeralExponent} (hsign : IsSign sign negative) (hinteger : IsInteger integer)
      (hfraction : IsFraction fraction places) (hexponent : IsExponent exponent power) :
      IsNumeral (sign ++ integer ++ fraction ++ exponent) ⟨negative, integer, places, power⟩

/-- The whole number that is written by the integer part and the sign of a numeral. -/
def Numeral.written (n : Numeral) : Int :=
  if n.negative then -(Nat.ofDigitChars 10 n.integer 0 : Int) else Nat.ofDigitChars 10 n.integer 0

/-- The number that a numeral stands for. -/
inductive Numeral.Denotes : Numeral → Number → Prop
  | integer {n : Numeral} {value : Int64} (hfraction : n.fraction = none) (hexponent : n.exponent = none)
      (hvalue : value.toInt = n.written) : Denotes n (.integer value)
  | float {n : Numeral}
      (h : n.fraction ≠ none ∨ n.exponent ≠ none ∨ ∀ value : Int64, value.toInt ≠ n.written) :
      Denotes n (.float (Binary64.ofDecimal n.negative n.toDecimal))

/-! ## Strings -/

/-- A hexadecimal digit in either case, with its value. -/
def IsHexDigit (char : Char) (value : Nat) : Prop :=
  "0123456789abcdef".toList[value]? = some char ∨ "0123456789ABCDEF".toList[value]? = some char

/-- Four hexadecimal digits, with the unit of UTF-16 that they write. -/
inductive IsHexUnit : List Char → Nat → Prop
  | mk {a b c d : Char} {i j k l : Nat} (ha : IsHexDigit a i) (hb : IsHexDigit b j)
      (hc : IsHexDigit c k) (hd : IsHexDigit d l) :
      IsHexUnit [a, b, c, d] (((i * 16 + j) * 16 + k) * 16 + l)

/-- The letter of a short escape, with the character that it stands for. -/
inductive IsEscape : Char → Char → Prop
  | quote : IsEscape '"' '"'
  | backslash : IsEscape '\\' '\\'
  | slash : IsEscape '/' '/'
  | backspace : IsEscape 'b' '\x08'
  | formFeed : IsEscape 'f' '\x0c'
  | lineFeed : IsEscape 'n' '\n'
  | carriageReturn : IsEscape 'r' '\r'
  | tab : IsEscape 't' '\t'

/-- One character of a string, as it is written. A unit of UTF-16 that is a surrogate is no character;
the two halves of a surrogate pair together are one. -/
inductive IsStringChar : List Char → Char → Prop
  | plain {char : Char} (hcontrol : ' ' ≤ char) (hquote : char ≠ '"') (hbackslash : char ≠ '\\') :
      IsStringChar [char] char
  | escape {letter char : Char} (h : IsEscape letter char) : IsStringChar ['\\', letter] char
  | unicode {digits : List Char} {char : Char} (h : IsHexUnit digits char.toNat) :
      IsStringChar ('\\' :: 'u' :: digits) char
  | surrogates {digits others : List Char} {high low : Nat} {char : Char} (h : IsHexUnit digits high)
      (h' : IsHexUnit others low) (hhigh : 0xd800 ≤ high ∧ high < 0xdc00)
      (hlow : 0xdc00 ≤ low ∧ low < 0xe000)
      (hchar : char.toNat = 0x10000 + (high - 0xd800) * 0x400 + (low - 0xdc00)) :
      IsStringChar ('\\' :: 'u' :: (digits ++ '\\' :: 'u' :: others)) char

/-- A string in quotes. -/
inductive IsString : List Char → String → Prop
  | mk {body : List Char} {text : String} (h : Repeats IsStringChar body text.toList) :
      IsString ('"' :: (body ++ ['"'])) text

/-! ## Values -/

/-- The members of an object have just the keys that were given, each with the last of the values that
it was given. -/
def Members.Gather (entries : List (String × Value)) (members : Members) : Prop :=
  ∀ key, members.entries.lookup key = entries.reverse.lookup key

mutual

/-- A value without white space around it. -/
inductive IsValue : List Char → Value → Prop
  | null : IsValue "null".toList .null
  | boolTrue : IsValue "true".toList (.bool true)
  | boolFalse : IsValue "false".toList (.bool false)
  | number {t : List Char} {n : Numeral} {number : Number} (h : IsNumeral t n) (hnumber : n.Denotes number) :
      IsValue t (.number number)
  | string {t : List Char} {text : String} (h : IsString t text) : IsValue t (.string text)
  | emptyArray {w : List Char} (hw : IsSpace w) : IsValue ('[' :: w ++ [']']) (.array [])
  | array {w t u w' : List Char} {item : Value} {items : List Value} (hw : IsSpace w)
      (hitem : IsValue t item) (hitems : IsItems u items) (hw' : IsSpace w') :
      IsValue ('[' :: w ++ (t ++ u ++ (w' ++ [']']))) (.array (item :: items))
  | emptyObject {w : List Char} (hw : IsSpace w) : IsValue ('\x7b' :: w ++ ['\x7d']) (.object .nil)
  | object {w t u w' : List Char} {entry : String × Value} {entries : List (String × Value)}
      {members : Members} (hw : IsSpace w) (hentry : IsMember t entry) (hentries : IsMembers u entries)
      (hw' : IsSpace w') (hmembers : Members.Gather (entry :: entries) members) :
      IsValue ('\x7b' :: w ++ (t ++ u ++ (w' ++ ['\x7d']))) (.object members)

/-- Further items of an array, each behind a comma. -/
inductive IsItems : List Char → List Value → Prop
  | nil : IsItems [] []
  | cons {w w' t u : List Char} {item : Value} {items : List Value} (hw : IsSpace w) (hw' : IsSpace w')
      (hitem : IsValue t item) (hitems : IsItems u items) :
      IsItems (w ++ (',' :: w') ++ t ++ u) (item :: items)

/-- A key and its value. -/
inductive IsMember : List Char → String × Value → Prop
  | mk {t w w' u : List Char} {key : String} {value : Value} (hkey : IsString t key) (hw : IsSpace w)
      (hw' : IsSpace w') (hvalue : IsValue u value) : IsMember (t ++ (w ++ (':' :: w') ++ u)) (key, value)

/-- Further members of an object, each behind a comma. -/
inductive IsMembers : List Char → List (String × Value) → Prop
  | nil : IsMembers [] []
  | cons {w w' t u : List Char} {entry : String × Value} {entries : List (String × Value)}
      (hw : IsSpace w) (hw' : IsSpace w') (hentry : IsMember t entry) (hentries : IsMembers u entries) :
      IsMembers (w ++ (',' :: w') ++ t ++ u) (entry :: entries)

end

/-- A document: a value with white space around it. -/
inductive IsDocument : List Char → Value → Prop
  | mk {w t w' : List Char} {value : Value} (hw : IsSpace w) (h : IsValue t value) (hw' : IsSpace w') :
      IsDocument (w ++ (t ++ w')) value

end Parsing.Json
