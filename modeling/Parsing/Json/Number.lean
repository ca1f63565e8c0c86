import Parsing.Json.Value

/-!
# Numerals of JSON

A numeral is the text of a number, taken apart. It stands for a whole number if it has neither a
fraction nor an exponent and fits into 64 bits, and for the nearest floating-point number otherwise.
-/

namespace Parsing.Json

/-- The exponent of a numeral. -/
structure NumeralExponent where
  negative : Bool
  digits : List Char
  deriving Repr, DecidableEq

/-- The parts of the text of a number; fraction and exponent may be missing. -/
structure Numeral where
  negative : Bool
  integer : List Char
  fraction : Option (List Char)
  exponent : Option NumeralExponent
  deriving Repr, DecidableEq

/-- The power of ten of an exponent. Once it is above 65535, which is far beyond every number of
64 bits, further digits are ignored. -/
def NumeralExponent.power (e : NumeralExponent) : Int :=
  let magnitude := e.digits.foldl
    (fun n char => if n < 65536 then 10 * n + Decimal.digitValue char else n) 0
  if e.negative then -(magnitude : Int) else magnitude

namespace Numeral

/-- The magnitude of a numeral. -/
def toDecimal (n : Numeral) : Decimal :=
  let fraction := n.fraction.getD []
  ⟨Decimal.ofDigits (n.integer ++ fraction),
    (n.exponent.map NumeralExponent.power).getD 0 - fraction.length⟩

/-- The whole number of the integer part, with its sign. -/
def toInt (n : Numeral) : Int :=
  let magnitude : Int := Decimal.ofDigits n.integer
  if n.negative then -magnitude else magnitude

/-- Whether a numeral stands for a whole number of 64 bits. -/
def isInteger (n : Numeral) : Bool :=
  n.fraction.isNone && n.exponent.isNone && Int64.minValue.toInt ≤ n.toInt &&
    n.toInt ≤ Int64.maxValue.toInt

/-- The number that a numeral stands for. -/
def toNumber (n : Numeral) : Number :=
  if n.isInteger then .integer (Int64.ofInt n.toInt)
  else .float (Binary64.ofDecimal n.negative n.toDecimal)

end Numeral

end Parsing.Json
