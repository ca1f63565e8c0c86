/-!
# Decimals

A decimal is a whole number times a power of ten. It is written positionally, without an exponent.
-/

namespace Parsing

/-- The number `significand * 10 ^ exponent`. -/
structure Decimal where
  significand : Nat
  exponent : Int
  deriving Repr, DecidableEq, Inhabited

namespace Decimal

/-- The value of a digit, 0 for a character that is no digit. -/
def digitValue (char : Char) : Nat := if '0' ≤ char ∧ char ≤ '9' then char.toNat - '0'.toNat else 0

/-- The whole number written by decimal digits. -/
def ofDigits (digits : List Char) : Nat := digits.foldl (fun n char => 10 * n + digitValue char) 0

/-- A run of zeros. -/
def zeros (count : Nat) : String := String.ofList (List.replicate count '0')

/-- Put a point in front of the last `places` of `digits`, with zeros where digits are missing. -/
def insertPoint (digits : List Char) (places : Nat) : String :=
  if places < digits.length then
    String.ofList (digits.take (digits.length - places)) ++ "." ++
      String.ofList (digits.drop (digits.length - places))
  else "0." ++ zeros (places - digits.length) ++ String.ofList digits

/-- The positional form of a decimal. -/
def render (d : Decimal) : String :=
  match d.exponent with
  | .ofNat power => toString d.significand ++ zeros power
  | .negSucc n => insertPoint (toString d.significand).toList (n + 1)

end Decimal

end Parsing
