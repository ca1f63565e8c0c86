/-!
# UTF-8, one character at a time

The first byte of a character tells how many bytes follow. Bytes that can start no character are
recognised without looking further; all other errors show once the character is complete.
-/

namespace Parsing.Bytes.Utf8

/-- How many bytes follow a first byte; none for a byte that can start no character. -/
def following? (lead : UInt8) : Option Nat :=
  if lead ≤ 0x7f then some 0
  else if 0xc2 ≤ lead ∧ lead ≤ 0xdf then some 1
  else if 0xe0 ≤ lead ∧ lead ≤ 0xef then some 2
  else if 0xf0 ≤ lead ∧ lead ≤ 0xf4 then some 3
  else none

/-- The character whose bytes these are, if they are well-formed. -/
def decode? (bytes : List UInt8) : Option Char := bytes.toByteArray.utf8DecodeChar? 0

end Parsing.Bytes.Utf8
