import Parsing.Proofs.Binary64.Decimals

/-!
# Whole numbers among shortest decimals

A shortest decimal without decimal places stands for a rank whose magnitude is a whole number, and the other
way round. It need not be that number, but it is on the same side of `2 ^ 63`.
-/

namespace Parsing.Binary64

variable {rank : Nat}

/-- Where whole numbers of 64 bits with a sign end. -/
def wholeLimit : Nat := Nat.pow 2 63

/-- The rank of that limit. -/
def limitRank : Nat := 1086 * ranksPerPower

/-- The limit of whole numbers of 64 bits is finite. -/
theorem limitRank_lt : limitRank < infinity := by decide +kernel

/-- The limit of whole numbers of 64 bits is a floating-point number. -/
theorem units_limitRank : units limitRank = wholeLimit * unitsPerOne := by decide +kernel

/-- A whole number is rounded to a whole number. -/
theorem units_nearestRank_whole {size : Nat} (h : nearestRank (size * unitsPerOne) 1 < infinity) :
    units (nearestRank (size * unitsPerOne) 1) % unitsPerOne = 0 := by
  rw [units_nearestRank Nat.one_pos h]
  rcases Nat.le_total (grain (size * unitsPerOne / 1)) 1074 with fine | coarse
  · -- grains divide one, so nothing is rounded
    obtain ⟨more, hmore⟩ := Nat.exists_eq_add_of_le fine
    have hone := unitsPerOne_eq ((Nat.add_comm _ _).trans hmore.symm)
    have hgrains : grains (size * unitsPerOne) 1 = size * Nat.pow 2 more := by
      have hsize : size * unitsPerOne = size * Nat.pow 2 more * (1 * Nat.pow 2 (grain (size * unitsPerOne / 1))) := by
        rw [Nat.one_mul, Nat.mul_assoc, ← hone]
      have hpow := Nat.mul_pos Nat.one_pos (two_pow_pos (grain (size * unitsPerOne / 1)))
      have rounded := roundHalfEven_mul (size * Nat.pow 2 more) hpow
      rwa [← hsize] at rounded
    rw [hgrains, Nat.mul_assoc, ← hone, Nat.mul_mod_left]
  · -- grains are whole numbers
    obtain ⟨more, hmore⟩ := Nat.exists_eq_add_of_le' coarse
    rw [hmore, ← two_pow_mul_unitsPerOne, ← Nat.mul_assoc, Nat.mul_mod_left]

/-- What is rounded to a rank is on the same side of the magnitude of a rank as the rank itself. -/
theorem le_units_nearestRank {num mark : Nat} (hmark : mark ≤ infinity) (h : units mark ≤ num) :
    mark ≤ nearestRank num 1 := by
  have hranks := nearestRank_le Nat.one_pos (Nat.mul_le_mul_right 1 h)
  rwa [nearestRank_units hmark Nat.one_pos, Nat.mul_one] at hranks

/-- What is at most as large as a number is rounded to at most that number. -/
theorem nearestRank_le_of_le_units {num mark : Nat} (hmark : mark ≤ infinity) (h : num ≤ units mark) :
    nearestRank num 1 ≤ mark := by
  have hranks := nearestRank_le Nat.one_pos (Nat.mul_le_mul_right 1 h)
  rwa [nearestRank_units hmark Nat.one_pos, Nat.mul_one] at hranks

/-- Numbers of larger rank are larger. -/
theorem units_le_units {rank' : Nat} (h : rank ≤ rank') (hrank' : rank' ≤ infinity) :
    units rank ≤ units rank' := by
  rcases Nat.lt_or_eq_of_le h with less | rfl
  · exact Nat.le_of_lt (units_lt_units less hrank')
  · exact Nat.le_refl _

/-! ## Shortest decimals without decimal places -/

/-- The whole number that a decimal without decimal places is. -/
def wholeOf (d : Decimal) : Nat := d.significand * Nat.pow 10 d.exponent.toNat

/-- A shortest decimal without decimal places is rounded as a whole number. -/
theorem nearestRank_wholeOf (h : rank ≤ infinity) (hexponent : 0 ≤ (shortest rank).exponent) :
    nearestRank (wholeOf (shortest rank) * unitsPerOne) 1 = rank := by
  have read := rankOfDecimal_shortest h
  obtain ⟨power, hpower⟩ := Int.eq_ofNat_of_zero_le hexponent
  rcases hshortest : shortest rank with ⟨significand, exponent⟩
  rw [hshortest] at read hpower
  obtain rfl : exponent = .ofNat power := hpower
  rwa [rankOfDecimal_ofNat] at read

/-- A shortest decimal has no decimal places exactly if the magnitude is a whole number. -/
theorem exponent_nonneg_iff (h : rank < infinity) :
    0 ≤ (shortest rank).exponent ↔ units rank % unitsPerOne = 0 := by
  constructor
  · intro hexponent
    have read := nearestRank_wholeOf (Nat.le_of_lt h) hexponent
    have hfinite : nearestRank (wholeOf (shortest rank) * unitsPerOne) 1 < infinity := by rwa [read]
    have whole := units_nearestRank_whole hfinite
    rwa [read] at whole
  · intro whole
    exact searchShortest_of_whole (Nat.le_of_lt h) whole (Nat.le_add_right _ _)

/-- The shortest decimal of the limit is above the limit. -/
theorem wholeOf_limitRank : wholeLimit < wholeOf (shortest limitRank) := by decide +kernel

/-- The shortest decimal of a whole number below the limit is below the limit. -/
theorem wholeOf_lt (h : rank < infinity) (whole : units rank % unitsPerOne = 0)
    (hlimit : units rank < wholeLimit * unitsPerOne) : wholeOf (shortest rank) < wholeLimit := by
  refine Nat.lt_of_not_le fun hle => ?_
  have read := nearestRank_wholeOf (Nat.le_of_lt h) ((exponent_nonneg_iff h).2 whole)
  have hunits : units limitRank ≤ wholeOf (shortest rank) * unitsPerOne := by
    rw [units_limitRank]
    exact Nat.mul_le_mul_right unitsPerOne hle
  have above := le_units_nearestRank (Nat.le_of_lt limitRank_lt) hunits
  rw [read] at above
  have units := units_le_units above (Nat.le_of_lt h)
  rw [units_limitRank] at units
  omega

/-- A whole number whose shortest decimal is not above the limit is below the limit. -/
theorem units_lt_of_wholeOf_le (h : rank < infinity) (whole : units rank % unitsPerOne = 0)
    (hlimit : wholeOf (shortest rank) ≤ wholeLimit) : units rank < wholeLimit * unitsPerOne := by
  have read := nearestRank_wholeOf (Nat.le_of_lt h) ((exponent_nonneg_iff h).2 whole)
  have hunits : wholeOf (shortest rank) * unitsPerOne ≤ units limitRank := by
    rw [units_limitRank]
    exact Nat.mul_le_mul_right unitsPerOne hlimit
  have below := nearestRank_le_of_le_units (Nat.le_of_lt limitRank_lt) hunits
  rw [read] at below
  rcases Nat.lt_or_eq_of_le below with less | rfl
  · rw [← units_limitRank]
    exact units_lt_units less (Nat.le_of_lt limitRank_lt)
  · exact absurd wholeOf_limitRank (Nat.not_lt.2 hlimit)

/-- A whole number is zero only if its shortest decimal is. -/
theorem wholeOf_pos (h : rank < infinity) (whole : units rank % unitsPerOne = 0) (hrank : rank ≠ 0) :
    0 < wholeOf (shortest rank) := by
  refine Nat.pos_of_ne_zero fun hzero => hrank ?_
  have read := nearestRank_wholeOf (Nat.le_of_lt h) ((exponent_nonneg_iff h).2 whole)
  rw [hzero, Nat.zero_mul, nearestRank_of_lt (by decide)] at read
  exact read.symm

end Parsing.Binary64
