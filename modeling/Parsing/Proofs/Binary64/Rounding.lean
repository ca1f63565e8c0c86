import Parsing.Binary64

/-!
# Rounding to ranks

A finite magnitude is a whole number of grains, where a grain is a power of two of units and there are at
most `2 * ranksPerPower` of them. Rounding picks the grain by the size of what is rounded and then counts
grains. So a magnitude that is the one of a rank is rounded to that rank, and larger quotients are never
rounded to smaller ranks.
-/

namespace Parsing.Binary64

/-- The next power of two is twice as large. -/
theorem two_pow_succ (n : Nat) : Nat.pow 2 (n + 1) = 2 * Nat.pow 2 n := Nat.pow_succ'

/-- Powers of two are positive. -/
theorem two_pow_pos (n : Nat) : 0 < Nat.pow 2 n := Nat.two_pow_pos n

/-- There are ranks between powers of two. -/
theorem ranksPerPower_pos : 0 < ranksPerPower := two_pow_pos 52

/-- One is some units. -/
theorem unitsPerOne_pos : 0 < unitsPerOne := by decide +kernel


/-! ## Whole numbers -/

/-- Rounding is down or up to the next whole number. -/
theorem roundHalfEven_bounds (num den : Nat) :
    num / den ≤ roundHalfEven num den ∧ roundHalfEven num den ≤ num / den + 1 := by
  simp only [roundHalfEven]
  split
  · omega
  · split <;> omega

/-- A whole number is rounded to itself. -/
theorem roundHalfEven_mul (m : Nat) {den : Nat} (h : 0 < den) : roundHalfEven (m * den) den = m := by
  simp only [roundHalfEven, Nat.mul_mod_left, Nat.mul_div_cancel m h]
  rw [if_pos (by omega)]

/-- Rounding keeps the order. -/
theorem roundHalfEven_le {num num' : Nat} (den : Nat) (h : num ≤ num') :
    roundHalfEven num den ≤ roundHalfEven num' den := by
  rcases Nat.lt_or_eq_of_le (Nat.div_le_div_right h : num / den ≤ num' / den) with less | same
  · have upper := (roundHalfEven_bounds num den).2
    have lower := (roundHalfEven_bounds num' den).1
    omega
  · have hmod : num % den ≤ num' % den := by
      have first := Nat.div_add_mod num den
      have second := Nat.div_add_mod num' den
      rw [same] at first
      omega
    simp only [roundHalfEven, same]
    split
    · split
      · exact Nat.le_refl _
      · split <;> omega
    · split
      · split
        · omega
        · split <;> omega
      · split
        · omega
        · split <;> omega

/-- What is at least a whole number is not rounded below it. -/
theorem le_roundHalfEven {m num den : Nat} (hden : 0 < den) (h : m * den ≤ num) :
    m ≤ roundHalfEven num den := by
  have rounded := roundHalfEven_le den h
  rwa [roundHalfEven_mul m hden] at rounded

/-- What is at most a whole number is not rounded above it. -/
theorem roundHalfEven_le_of_le {m num den : Nat} (hden : 0 < den) (h : num ≤ m * den) :
    roundHalfEven num den ≤ m := by
  have rounded := roundHalfEven_le den h
  rwa [roundHalfEven_mul m hden] at rounded

/-! ## Grains -/

/-- The power of two of units that magnitudes of this size are counted in. -/
def grain (size : Nat) : Nat := Nat.log2 size - 52

/-- A grain is large enough if there are fewer than `2 * ranksPerPower` of it. -/
theorem grain_le_iff {size power : Nat} :
    grain size ≤ power ↔ size < 2 * ranksPerPower * Nat.pow 2 power := by
  have hpow : 2 * ranksPerPower * Nat.pow 2 power = Nat.pow 2 (53 + power) :=
    (Nat.pow_add 2 53 power).symm
  by_cases hsize : size = 0
  · subst hsize
    simpa [grain, Nat.log2_zero] using
      Nat.mul_pos (Nat.mul_pos Nat.two_pos ranksPerPower_pos) (two_pow_pos power)
  · have hlog : Nat.log2 size < 53 + power ↔ size < Nat.pow 2 (53 + power) := Nat.log2_lt hsize
    rw [hpow, ← hlog, grain]
    omega

/-- A size has at most 53 digits above its grain. -/
theorem lt_of_grain (size : Nat) : size < 2 * ranksPerPower * Nat.pow 2 (grain size) :=
  grain_le_iff.1 (Nat.le_refl _)

/-- Larger magnitudes have no smaller grains. -/
theorem grain_le {size size' : Nat} (h : size ≤ size') : grain size ≤ grain size' :=
  grain_le_iff.2 (Nat.lt_of_le_of_lt h (lt_of_grain size'))

/-- Unless the grain is a unit there are `ranksPerPower` grains or more. -/
theorem le_of_grain {size : Nat} (h : grain size ≠ 0) : ranksPerPower * Nat.pow 2 (grain size) ≤ size := by
  obtain ⟨power, hpower⟩ := Nat.exists_eq_succ_of_ne_zero h
  have hsmaller : ¬grain size ≤ power := by omega
  rw [grain_le_iff, Nat.not_lt] at hsmaller
  rw [hpower, two_pow_succ, ← Nat.mul_assoc, Nat.mul_comm _ 2]
  exact hsmaller

/-- A count of grains of a power of two: fewer than `2 * ranksPerPower`, and `ranksPerPower` or more unless
the grain is a unit. -/
structure Counts (power count : Nat) : Prop where
  lt : count < 2 * ranksPerPower
  le : power = 0 ∨ ranksPerPower ≤ count

variable {power count rank : Nat}

/-- A count of grains counts grains of the right size. -/
theorem Counts.grain_eq (h : Counts power count) : grain (count * Nat.pow 2 power) = power := by
  have hpow := two_pow_pos power
  refine Nat.le_antisymm (grain_le_iff.2 (Nat.mul_lt_mul_of_pos_right h.lt hpow)) ?_
  rcases h.le with hpower | hcount
  · omega
  · cases power with
    | zero => exact Nat.zero_le _
    | succ power =>
      refine Nat.lt_of_not_le fun hsmaller => ?_
      rw [grain_le_iff, two_pow_succ, ← Nat.mul_assoc, Nat.mul_comm count 2] at hsmaller
      have hless := Nat.lt_of_mul_lt_mul_right hsmaller
      omega

/-- The magnitude of a rank is a count of grains. -/
theorem Counts.units_eq (h : Counts power count) :
    units (power * ranksPerPower + count) = count * Nat.pow 2 power := by
  have hpos := ranksPerPower_pos
  have hlt := h.lt
  by_cases hcount : count < ranksPerPower
  · obtain rfl : power = 0 := h.le.resolve_right (Nat.not_le.2 hcount)
    rw [Nat.zero_mul, Nat.zero_add]
    simp only [units, Nat.div_eq_of_lt hcount, Nat.mod_eq_of_lt hcount, if_true]
    exact (Nat.mul_one count).symm
  · obtain ⟨fraction, rfl⟩ := Nat.exists_eq_add_of_le (Nat.not_lt.1 hcount)
    have hfraction : fraction < ranksPerPower := by omega
    have hrank : power * ranksPerPower + (ranksPerPower + fraction) = fraction + ranksPerPower * (power + 1) := by
      rw [Nat.mul_add, Nat.mul_one, Nat.mul_comm power]
      omega
    simp only [units, hrank, Nat.add_mul_div_left _ _ hpos, Nat.add_mul_mod_self_left,
      Nat.div_eq_of_lt hfraction, Nat.mod_eq_of_lt hfraction, Nat.zero_add]
    rw [if_neg (Nat.succ_ne_zero _), Nat.add_sub_cancel]

/-- Every rank counts grains. -/
theorem exists_counts (rank : Nat) :
    ∃ power count, Counts power count ∧ rank = power * ranksPerPower + count := by
  have hpos := ranksPerPower_pos
  have hmod := Nat.mod_lt rank hpos
  have hdiv := Nat.div_add_mod' rank ranksPerPower
  cases hpower : rank / ranksPerPower with
  | zero =>
    rw [hpower] at hdiv
    exact ⟨0, rank % ranksPerPower, ⟨by omega, .inl rfl⟩, hdiv.symm⟩
  | succ power =>
    rw [hpower, Nat.add_mul, Nat.one_mul] at hdiv
    exact ⟨power, ranksPerPower + rank % ranksPerPower, ⟨by omega, .inr (by omega)⟩, by omega⟩

/-! ## Ranks -/

/-- How many grains a quotient is rounded to. -/
def grains (num den : Nat) : Nat := roundHalfEven num (den * Nat.pow 2 (grain (num / den)))

/-- The nearest rank counts the ranks below the power of two and the grains above it, up to infinity. -/
theorem nearestRank_eq (num den : Nat) : nearestRank num den =
    min infinity (grain (num / den) * ranksPerPower + grains num den) := rfl

/-- Rounding up may give one grain more than a count. -/
theorem grains_le (num : Nat) {den : Nat} (hden : 0 < den) : grains num den ≤ 2 * ranksPerPower := by
  refine roundHalfEven_le_of_le (Nat.mul_pos hden (two_pow_pos _)) ?_
  have hlt := (Nat.div_lt_iff_lt_mul hden).1 (lt_of_grain (num / den))
  rw [Nat.mul_comm den, ← Nat.mul_assoc]
  exact Nat.le_of_lt hlt

/-- Where the grain is more than one unit, all 53 digits above it are used. -/
theorem le_grains {num den : Nat} (hden : 0 < den) (h : grain (num / den) ≠ 0) :
    ranksPerPower ≤ grains num den := by
  refine le_roundHalfEven (Nat.mul_pos hden (two_pow_pos _)) ?_
  have hle := (Nat.le_div_iff_mul_le hden).1 (le_of_grain h)
  rw [Nat.mul_comm den, ← Nat.mul_assoc]
  exact hle

/-- The magnitude of a rank is rounded to that rank. -/
theorem nearestRank_units (h : rank ≤ infinity) {den : Nat} (hden : 0 < den) :
    nearestRank (units rank * den) den = rank := by
  obtain ⟨power, count, counts, rfl⟩ := exists_counts rank
  have hgrains : count * Nat.pow 2 power * den = count * (den * Nat.pow 2 power) := by
    rw [Nat.mul_assoc, Nat.mul_comm den]
  rw [counts.units_eq, nearestRank_eq, grains, Nat.mul_div_cancel _ hden, counts.grain_eq, hgrains,
    roundHalfEven_mul _ (Nat.mul_pos hden (two_pow_pos power)), Nat.min_eq_right h]

/-- What is rounded to a finite rank is rounded to a count of grains, which are the magnitude of that
rank. -/
theorem units_nearestRank {num den : Nat} (hden : 0 < den) (h : nearestRank num den < infinity) :
    units (nearestRank num den) = grains num den * Nat.pow 2 (grain (num / den)) := by
  have hrank : nearestRank num den = grain (num / den) * ranksPerPower + grains num den := by
    rw [nearestRank_eq] at h ⊢
    refine Nat.min_eq_right (Nat.le_of_not_lt fun hlarge => ?_)
    rw [Nat.min_eq_left (Nat.le_of_lt hlarge)] at h
    exact Nat.lt_irrefl _ h
  have hpos := ranksPerPower_pos
  rw [hrank]
  rcases Nat.lt_or_eq_of_le (grains_le num hden) with less | most
  · refine Counts.units_eq ⟨less, ?_⟩
    exact (Nat.eq_zero_or_pos _).imp_right fun hsome => le_grains hden (Nat.ne_of_gt hsome)
  · -- the count is that of the next power
    have counts : Counts (grain (num / den) + 1) ranksPerPower := ⟨by omega, .inr (Nat.le_refl _)⟩
    have hnext : grain (num / den) * ranksPerPower + 2 * ranksPerPower =
        (grain (num / den) + 1) * ranksPerPower + ranksPerPower := by
      rw [Nat.add_mul (grain (num / den)), Nat.one_mul]
      omega
    rw [most, hnext, counts.units_eq, two_pow_succ, ← Nat.mul_assoc, Nat.mul_comm 2]

/-- Larger quotients are not rounded to smaller ranks. -/
theorem nearestRank_le {num num' den : Nat} (hden : 0 < den) (h : num ≤ num') :
    nearestRank num den ≤ nearestRank num' den := by
  have hsize : num / den ≤ num' / den := Nat.div_le_div_right h
  suffices grain (num / den) * ranksPerPower + grains num den ≤
      grain (num' / den) * ranksPerPower + grains num' den from
    Nat.le_min.2 ⟨Nat.min_le_left _ _, Nat.le_trans (Nat.min_le_right _ _) this⟩
  rcases Nat.lt_or_eq_of_le (grain_le hsize) with coarser | same
  · -- there are at most `2 * ranksPerPower` of the smaller grains, and `ranksPerPower` or more of the others
    have hlower := grains_le num hden
    have hupper : ranksPerPower ≤ grains num' den := le_grains hden (by omega)
    have hpowers : grain (num / den) * ranksPerPower + ranksPerPower ≤ grain (num' / den) * ranksPerPower := by
      rw [← Nat.succ_mul]
      exact Nat.mul_le_mul_right _ coarser
    omega
  · rw [grains, grains, same]
    exact Nat.add_le_add_left (roundHalfEven_le _ h) _

/-- The magnitude of a larger rank is larger. -/
theorem units_lt_units {rank' : Nat} (h : rank < rank') (hrank' : rank' ≤ infinity) :
    units rank < units rank' := by
  refine Nat.lt_of_not_le fun hle => ?_
  have hranks := nearestRank_le Nat.one_pos (Nat.mul_le_mul_right 1 hle)
  rw [nearestRank_units hrank' Nat.one_pos, nearestRank_units (by omega) Nat.one_pos] at hranks
  omega

end Parsing.Binary64
