import Parsing.Binary64.Shortest
import Parsing.Proofs.Binary64.Rounding

/-!
# Reading decimals

A decimal is read as the rank nearest to it. The shortcuts for decimals that are too large or too small
give the rank that the full computation gives. The shortest decimal of a finite rank is read as that rank,
and it is a whole number if the magnitude is one.
-/

namespace Parsing.Binary64

variable {rank : Nat}

/-! ## Shortcuts -/

/-- One is a power of two units. -/
theorem two_pow_mul_unitsPerOne (n : Nat) : Nat.pow 2 n * unitsPerOne = Nat.pow 2 (n + 1074) := by
  unfold unitsPerOne
  generalize 1074 = m
  exact (Nat.pow_add 2 n m).symm

/-- One can be split into two powers of two. -/
theorem unitsPerOne_eq {a b : Nat} (h : a + b = 1074) : unitsPerOne = Nat.pow 2 a * Nat.pow 2 b := by
  unfold unitsPerOne
  rw [← h]
  exact Nat.pow_add 2 a b

/-- Infinity is where `2 ^ 1024` would be. -/
theorem units_infinity {n : Nat} (h : n = 1024) : units infinity = Nat.pow 2 n * unitsPerOne := by
  subst h
  decide +kernel

/-- Too large a size is rounded to infinity. -/
theorem nearestRank_of_le {size n : Nat} (h : Nat.pow 2 n ≤ size) (hn : 1024 ≤ n) :
    nearestRank (size * unitsPerOne) 1 = infinity := by
  obtain ⟨m, hm⟩ : ∃ m, m = 1024 := ⟨_, rfl⟩
  have hle : units infinity * 1 ≤ size * unitsPerOne := by
    rw [Nat.mul_one, units_infinity hm]
    exact Nat.mul_le_mul_right _ (Nat.le_trans (Nat.pow_le_pow_right (by decide) (hm ▸ hn)) h)
  have lower := nearestRank_le Nat.one_pos hle
  rw [nearestRank_units (Nat.le_refl _) Nat.one_pos] at lower
  exact Nat.le_antisymm (Nat.min_le_left _ _) lower

/-- What is less than half of the smallest magnitude is rounded to nothing. -/
theorem nearestRank_of_lt {num den : Nat} (h : 2 * num < den) : nearestRank num den = 0 := by
  have hnone : num / den = 0 := Nat.div_eq_of_lt (by omega)
  have hgrain : grain 0 = 0 := by simp [grain, Nat.log2_zero]
  have hround : roundHalfEven num (den * Nat.pow 2 0) = 0 := by
    rw [Nat.pow_eq, Nat.pow_zero, Nat.mul_one]
    simp only [roundHalfEven, hnone, Nat.mod_eq_of_lt (by omega : num < den)]
    rw [if_pos h]
  rw [nearestRank_eq, grains, hnone, hgrain, hround, Nat.zero_mul, Nat.add_zero]
  exact Nat.min_eq_right (Nat.zero_le _)

/-- Powers of ten are positive. -/
theorem ten_pow_pos (n : Nat) : 0 < Nat.pow 10 n := Nat.pow_pos (by decide)

/-- Powers of ten have more than three binary digits for each power. -/
theorem two_pow_le_ten_pow (n : Nat) : Nat.pow 2 (3 * n) ≤ Nat.pow 10 n := by
  have h : Nat.pow 2 (3 * n) = Nat.pow 8 n := Nat.pow_mul 2 3 n
  rw [h]
  exact Nat.pow_le_pow_left (by decide) n

/-- Decimals without decimal places are rounded, also when they are large. -/
theorem rankOfDecimal_ofNat (significand power : Nat) : rankOfDecimal ⟨significand, .ofNat power⟩ =
    nearestRank (significand * Nat.pow 10 power * unitsPerOne) 1 := by
  unfold rankOfDecimal
  split
  · next hzero =>
    obtain rfl : significand = 0 := hzero
    rw [Nat.zero_mul, Nat.zero_mul, nearestRank_of_lt (by decide)]
  · next hzero =>
    simp only
    split
    · next hlarge =>
      refine (nearestRank_of_le ?_ hlarge).symm
      calc Nat.pow 2 (Nat.log2 significand + 3 * power)
          = Nat.pow 2 (Nat.log2 significand) * Nat.pow 2 (3 * power) := Nat.pow_add 2 _ _
        _ ≤ significand * Nat.pow 10 power :=
            Nat.mul_le_mul (Nat.log2_self_le hzero) (two_pow_le_ten_pow power)
    · rfl

/-- Decimals with decimal places are rounded, also when they are small. -/
theorem rankOfDecimal_negSucc (significand n : Nat) : rankOfDecimal ⟨significand, .negSucc n⟩ =
    nearestRank (significand * unitsPerOne) (Nat.pow 10 (n + 1)) := by
  have hpow := ten_pow_pos (n + 1)
  unfold rankOfDecimal
  split
  · next hzero =>
    obtain rfl : significand = 0 := hzero
    rw [Nat.zero_mul, nearestRank_of_lt (show 2 * 0 < _ from hpow)]
  · next hzero =>
    simp only
    split
    · next hsmall =>
      refine (nearestRank_of_lt ?_).symm
      calc 2 * (significand * unitsPerOne)
          < 2 * (Nat.pow 2 (Nat.log2 significand + 1) * unitsPerOne) :=
            Nat.mul_lt_mul_of_pos_left (Nat.mul_lt_mul_of_pos_right Nat.lt_log2_self unitsPerOne_pos)
              (by decide)
        _ = Nat.pow 2 (Nat.log2 significand + 1076) := by
            rw [two_pow_mul_unitsPerOne, ← two_pow_succ]
        _ ≤ Nat.pow 2 (3 * (n + 1)) := Nat.pow_le_pow_right (by decide) hsmall
        _ ≤ Nat.pow 10 (n + 1) := two_pow_le_ten_pow (n + 1)
    · rfl

/-! ## Magnitudes of ranks -/

/-- A sign and a rank are all that there is to a number. -/
theorem ofRank_rank (x : Binary64) : ofRank x.negative x.rank = x := by
  rcases x with ⟨bits⟩
  have hhalf : Nat.pow 2 63 = 9223372036854775808 := rfl
  have hbits : bits.toNat < 18446744073709551616 := bits.toNat_lt
  have hsum : (if Nat.pow 2 63 ≤ bits.toNat then Nat.pow 2 63 else 0) + bits.toNat % Nat.pow 2 63 =
      bits.toNat := by
    rw [hhalf]
    split <;> omega
  rw [ofRank, negative, rank]
  simp only [decide_eq_true_eq, hsum, UInt64.ofNat_toNat]

/-- A decimal without decimal places that is the magnitude of a rank. -/
theorem rankOfDecimal_ofNat_of_eq (h : rank ≤ infinity) {significand power : Nat}
    (heq : significand * Nat.pow 10 power * unitsPerOne = units rank) :
    rankOfDecimal ⟨significand, .ofNat power⟩ = rank := by
  rw [rankOfDecimal_ofNat, heq, ← Nat.mul_one (units rank), nearestRank_units h Nat.one_pos]

/-- A decimal with decimal places that is the magnitude of a rank. -/
theorem rankOfDecimal_negSucc_of_eq (h : rank ≤ infinity) {significand n : Nat}
    (heq : significand * unitsPerOne = units rank * Nat.pow 10 (n + 1)) :
    rankOfDecimal ⟨significand, .negSucc n⟩ = rank := by
  rw [rankOfDecimal_negSucc, heq, nearestRank_units h (ten_pow_pos (n + 1))]

/-! ## Shortest decimals -/

/-- A neighbour is on the grid and is read as the rank. -/
theorem neighbour?_spec {exponent : Int} {d : Decimal} (h : neighbour? rank exponent = some d) :
    d.exponent = exponent ∧ rankOfDecimal d = rank := by
  simp only [neighbour?] at h
  split at h
  · next below above =>
    obtain rfl := Option.some.inj h
    split
    · exact ⟨rfl, by simpa using above⟩
    · exact ⟨rfl, by simpa using below⟩
  · next below _ =>
    obtain rfl := Option.some.inj h
    exact ⟨rfl, by simpa using below⟩
  · next _ above =>
    obtain rfl := Option.some.inj h
    exact ⟨rfl, by simpa using above⟩
  · cases h

/-- On the finest grid every magnitude is a grid point. -/
theorem rankOfDecimal_finest (h : rank ≤ infinity) {n : Nat} (hn : 1074 = n) :
    rankOfDecimal ⟨units rank * Nat.pow 5 n, -1074⟩ = rank := by
  have hpow : Nat.pow 5 n * unitsPerOne = Nat.pow 10 n := by
    unfold unitsPerOne
    rw [hn]
    exact (Nat.mul_pow 5 2 n).symm
  cases n with
  | zero => cases hn
  | succ n =>
    have hexponent : (-1074 : Int) = .negSucc n := by omega
    rw [hexponent]
    refine rankOfDecimal_negSucc_of_eq h ?_
    rw [Nat.mul_assoc, hpow]

/-- Whatever the search finds is read as the rank. -/
theorem rankOfDecimal_searchShortest (h : rank ≤ infinity) (steps : Nat) :
    rankOfDecimal (searchShortest rank steps) = rank := by
  induction steps with
  | zero =>
    rw [searchShortest]
    generalize hn : 1074 = n
    exact rankOfDecimal_finest h hn
  | succ steps ih =>
    rw [searchShortest]
    split
    · next found => exact (neighbour?_spec found).2
    · exact ih

/-- The shortest decimal of a rank is read as that rank. -/
theorem rankOfDecimal_shortest (h : rank ≤ infinity) : rankOfDecimal (shortest rank) = rank :=
  rankOfDecimal_searchShortest h _

/-- On the grid of whole numbers a whole number is its own neighbour. -/
theorem neighbour?_of_whole (h : rank ≤ infinity) (whole : units rank % unitsPerOne = 0) :
    neighbour? rank (.ofNat 0) ≠ none := by
  have hscaled : scaled rank (.ofNat 0) = (units rank, unitsPerOne) := by
    rw [scaled, Nat.pow_eq, Nat.pow_zero, Nat.mul_one]
  have below : rankOfDecimal ⟨units rank / unitsPerOne, .ofNat 0⟩ = rank := by
    refine rankOfDecimal_ofNat_of_eq h ?_
    rw [Nat.pow_eq, Nat.pow_zero, Nat.mul_one]
    exact Nat.div_mul_cancel (Nat.dvd_of_mod_eq_zero whole)
  simp only [neighbour?, hscaled, below, beq_self_eq_true]
  split
  · exact Option.some_ne_none _
  · exact Option.some_ne_none _
  · next h _ => cases h
  · next h _ => cases h

/-- The search for a whole number does not go on to grids that are finer than the whole numbers. -/
theorem searchShortest_of_whole (h : rank ≤ infinity) (whole : units rank % unitsPerOne = 0)
    {steps : Nat} (hsteps : 1074 ≤ steps) : 0 ≤ (searchShortest rank steps).exponent := by
  induction steps with
  | zero => omega
  | succ steps ih =>
    rw [searchShortest]
    split
    · next found =>
      rw [(neighbour?_spec found).1]
      omega
    · next nothing =>
      refine ih (Nat.le_of_not_lt fun hlast => ?_)
      obtain rfl : steps = 1073 := by omega
      exact neighbour?_of_whole h whole nothing

end Parsing.Binary64
