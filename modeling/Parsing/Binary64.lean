import Parsing.Decimal

/-!
# Binary floating-point numbers of 64 bits

A number is its 64 bits: a sign and a rank. Ranks count the magnitudes from zero upwards, so a
larger rank is a larger magnitude; `units` gives the magnitude of a finite rank in units of
`2 ^ -1074`, the smallest one. The rank after the last finite one is infinity, and higher ones
stand for no number.

A decimal is read as the nearest number, and as the one of even rank if two are equally near.
All arithmetic is exact.
-/

namespace Parsing

/-- A floating-point number, given by its bits. -/
structure Binary64 where
  bits : UInt64
  deriving Repr, DecidableEq, Inhabited

namespace Binary64

/-- How many ranks share a power of two. -/
def ranksPerPower : Nat := Nat.pow 2 52

/-- The rank of infinity. -/
def infinity : Nat := 2047 * ranksPerPower

/-- How many units are one. -/
def unitsPerOne : Nat := Nat.pow 2 1074

/-- Whether the sign is set. -/
def negative (x : Binary64) : Bool := Nat.pow 2 63 ≤ x.bits.toNat

/-- The rank of the magnitude. -/
def rank (x : Binary64) : Nat := x.bits.toNat % Nat.pow 2 63

/-- Whether this is neither infinite nor without a value. -/
def isFinite (x : Binary64) : Bool := x.rank < infinity

/-- Whether this stands for no number. -/
def isNaN (x : Binary64) : Bool := infinity < x.rank

/-- The number with a sign and a rank. -/
def ofRank (negative : Bool) (rank : Nat) : Binary64 :=
  ⟨UInt64.ofNat ((if negative then Nat.pow 2 63 else 0) + rank)⟩

/-- The magnitude of a finite rank, in units. -/
def units (rank : Nat) : Nat :=
  let power := rank / ranksPerPower
  let fraction := rank % ranksPerPower
  if power = 0 then fraction else (ranksPerPower + fraction) * Nat.pow 2 (power - 1)

/-- The whole number nearest to `num / den`, the even one of two. -/
def roundHalfEven (num den : Nat) : Nat :=
  let quotient := num / den
  let twice := 2 * (num % den)
  if twice < den then quotient
  else if twice = den then quotient + quotient % 2
  else quotient + 1

/-- The rank nearest to `num / den` units, the even one of two; infinity if it is too large. -/
def nearestRank (num den : Nat) : Nat :=
  let power := Nat.log2 (num / den) - 52
  min infinity (power * ranksPerPower + roundHalfEven num (den * Nat.pow 2 power))

/-- The rank nearest to a decimal. Decimals that are certainly too large or too small for a finite
rank other than zero are recognised by their number of binary digits alone. -/
def rankOfDecimal (d : Decimal) : Nat :=
  if d.significand = 0 then 0
  else
    match d.exponent with
    | .ofNat power =>
      if 1024 ≤ Nat.log2 d.significand + 3 * power then infinity
      else nearestRank (d.significand * Nat.pow 10 power * unitsPerOne) 1
    | .negSucc n =>
      if Nat.log2 d.significand + 1076 ≤ 3 * (n + 1) then 0
      else nearestRank (d.significand * unitsPerOne) (Nat.pow 10 (n + 1))

/-- The number nearest to a decimal, with a sign. -/
def ofDecimal (negative : Bool) (d : Decimal) : Binary64 := ofRank negative (rankOfDecimal d)

/-- Equality of values: zeros are equal whatever their sign, and what is no number equals nothing. -/
def equal (x y : Binary64) : Bool :=
  !x.isNaN && !y.isNaN && (x.bits == y.bits || (x.rank == 0 && y.rank == 0))

end Binary64

end Parsing
