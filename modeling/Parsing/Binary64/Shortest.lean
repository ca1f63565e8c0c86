import Parsing.Binary64

/-!
# Shortest decimals

The shortest decimal of a floating-point number is the one with the fewest digits that is read as
that number. It is found on the coarsest grid of powers of ten on which one of the two neighbours
of the number reads back; of two such neighbours the nearer one is taken, and the larger one if
both are equally near. On the grid of `10 ^ -1074` every number is a grid point, so the search ends.
-/

namespace Parsing.Binary64

/-- The magnitude of a rank divided by `10 ^ exponent`, as a quotient. -/
def scaled (rank : Nat) (exponent : Int) : Nat × Nat :=
  match exponent with
  | .ofNat power => (units rank, unitsPerOne * Nat.pow 10 power)
  | .negSucc n => (units rank * Nat.pow 10 (n + 1), unitsPerOne)

/-- A neighbour of a rank on the grid of `10 ^ exponent` that is read as that rank. -/
def neighbour? (rank : Nat) (exponent : Int) : Option Decimal :=
  let (num, den) := scaled rank exponent
  let below : Decimal := ⟨num / den, exponent⟩
  let above : Decimal := ⟨num / den + 1, exponent⟩
  match rankOfDecimal below == rank, rankOfDecimal above == rank with
  | true, true => some (if den ≤ 2 * (num % den) then above else below)
  | true, false => some below
  | false, true => some above
  | false, false => none

/-- Search the grids of `10 ^ (steps - 1074)` and finer ones. -/
def searchShortest (rank : Nat) : Nat → Decimal
  | 0 => ⟨units rank * Nat.pow 5 1074, -1074⟩
  | steps + 1 =>
    match neighbour? rank ((steps : Int) + 1 - 1074) with
    | some d => d
    | none => searchShortest rank steps

/-- The shortest decimal of a finite rank. -/
def shortest (rank : Nat) : Decimal :=
  searchShortest rank (1074 + (Nat.toDigits 10 (units rank / unitsPerOne)).length)

end Parsing.Binary64
