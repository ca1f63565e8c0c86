import Parsing.Text.Invisible

/-!
# Quoted text for display

Texts and characters in quotes, on one line, with every character that could not be seen written as
an escape.
-/

namespace Parsing.Text

/-- The hexadecimal digits of a number, in lower case. -/
def hexDigits (n : Nat) : List Char := Nat.toDigits 16 n

/-- At least four hexadecimal digits of a number, in lower case. -/
def hexDigits4 (n : Nat) : List Char :=
  List.replicate (4 - (hexDigits n).length) '0' ++ hexDigits n

/-- The escape of a character by its code point. -/
def codePointEscape (char : Char) : List Char := "\\u\x7b".toList ++ hexDigits char.toNat ++ ['\x7d']

/-- The characters that show one character between quotes of the kind `quote`. -/
def displayChar (quote char : Char) : List Char :=
  if char = '\x00' then ['\\', '0']
  else if char = '\t' then ['\\', 't']
  else if char = '\r' then ['\\', 'r']
  else if char = '\n' then ['\\', 'n']
  else if char = '\\' ∨ char = quote then ['\\', char]
  else if char < ' ' ∨ isInvisible char then codePointEscape char
  else [char]

/-- A text in double quotes. -/
def quoteText (text : String) : String :=
  String.ofList ('"' :: text.toList.flatMap (displayChar '"') ++ ['"'])

/-- A character in single quotes. -/
def quoteChar (char : Char) : String :=
  String.ofList ('\'' :: displayChar '\'' char ++ ['\''])

end Parsing.Text
