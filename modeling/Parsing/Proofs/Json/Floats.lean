import Parsing.Proofs.Binary64.Whole
import Parsing.Proofs.Json.Printing

/-!
# What floating-point numbers are printed as

A finite floating-point number is printed as the text of a number, and its text is read as that number, but
for one exception. Whole numbers from `10 ^ 16` on are printed without a decimal point. From `2 ^ 63` on they
are too large for whole numbers of 64 bits, so that their texts stand for floating-point numbers all the
same. Those in between come back as whole numbers.
-/

namespace Parsing.Json

open Binary64

/-! ## Digits -/

/-- Whole numbers are written in digits. -/
theorem isDigit_toDigits (n : Nat) : ∀ char ∈ Nat.toDigits 10 n, char.isDigit = true :=
  (isInteger_toDigits n).isDigit

/-- The digits of a whole number are read as that number. -/
theorem ofDigits_toDigits (n : Nat) : Decimal.ofDigits (Nat.toDigits 10 n) = n := by
  rw [Decimal.ofDigits, foldl_digitValue (isDigit_toDigits n), Nat.ofDigitChars_ten_toDigits]

/-- Zeros in front do not count. -/
theorem ofDigits_replicate_append (count : Nat) (t : List Char) :
    Decimal.ofDigits (List.replicate count '0' ++ t) = Decimal.ofDigits t := by
  induction count with
  | zero => rfl
  | succ count ih => exact ih

/-- A zero behind multiplies by ten. -/
theorem ofDigits_append_zero (t : List Char) : Decimal.ofDigits (t ++ ['0']) = 10 * Decimal.ofDigits t := by
  rw [Decimal.ofDigits, List.foldl_append]
  rfl

/-- Zeros behind multiply by a power of ten. -/
theorem toDigits_mul_ten_pow {n : Nat} (h : 0 < n) (power : Nat) :
    Nat.toDigits 10 (n * Nat.pow 10 power) = Nat.toDigits 10 n ++ List.replicate power '0' := by
  induction power with
  | zero => rw [Nat.pow_eq, Nat.pow_zero, Nat.mul_one, List.replicate_zero, List.append_nil]
  | succ power ih =>
    have hstep : n * Nat.pow 10 (power + 1) = 10 * (n * Nat.pow 10 power) + 0 := by
      rw [show Nat.pow 10 (power + 1) = 10 * Nat.pow 10 power from Nat.pow_succ', Nat.mul_left_comm,
        Nat.add_zero]
    have hpos := Nat.mul_pos h (ten_pow_pos power)
    rw [hstep, ← Nat.toDigits_append_toDigits (by decide) hpos (by decide), ih, List.append_assoc,
      List.replicate_succ']
    rfl

/-- The first digits of a whole number are a whole number. -/
theorem IsInteger.of_append {t rest : List Char} (h : IsInteger (t ++ rest)) (hne : t ≠ []) : IsInteger t := by
  cases t with
  | nil => exact absurd rfl hne
  | cons first t =>
    rw [List.cons_append] at h
    generalize hmore : t ++ rest = more at h
    cases h with
    | zero =>
      rw [(List.append_eq_nil_iff.1 hmore).1]
      exact .zero
    | nonzero hfirst hzero hrest =>
      exact .nonzero hfirst hzero fun char hchar => hrest char (hmore ▸ List.mem_append_left _ hchar)

/-! ## Decimals -/

/-- A decimal that is written with a point, without an exponent. -/
inductive IsPointed : List Char → Decimal → Prop
  | mk {integer fraction : List Char} (hinteger : IsInteger integer) (hfraction : IsDigits fraction) :
      IsPointed (integer ++ '.' :: fraction)
        ⟨Decimal.ofDigits (integer ++ fraction), -(fraction.length : Int)⟩

/-- A point among the digits of a whole number. -/
theorem isPointed_take_drop {digits : List Char} (hinteger : IsInteger digits) {places : Nat}
    (hplaces : 0 < places) (henough : places < digits.length) :
    IsPointed (digits.take (digits.length - places) ++ '.' :: digits.drop (digits.length - places))
      ⟨Decimal.ofDigits digits, -(places : Int)⟩ := by
  have hsplit := List.take_append_drop (digits.length - places) digits
  have htake : (digits.take (digits.length - places)).length = digits.length - places := by
    rw [List.length_take]
    omega
  have hdrop : (digits.drop (digits.length - places)).length = places := by
    rw [List.length_drop]
    omega
  have hbefore : IsInteger (digits.take (digits.length - places)) :=
    IsInteger.of_append (hsplit.symm ▸ hinteger) (List.ne_nil_of_length_pos (by omega))
  have hbehind : IsDigits (digits.drop (digits.length - places)) :=
    ⟨List.ne_nil_of_length_pos (by omega), fun char hchar =>
      hinteger.isDigit char (List.mem_of_mem_drop hchar)⟩
  have pointed := IsPointed.mk hbefore hbehind
  rwa [hsplit, hdrop] at pointed

/-- Digits behind a point, with zeros where digits are missing. -/
theorem isPointed_zeros {digits : List Char} (hdigits : ∀ char ∈ digits, char.isDigit = true)
    {places : Nat} (hplaces : 0 < places) (hfew : digits.length ≤ places) :
    IsPointed ('0' :: '.' :: (List.replicate (places - digits.length) '0' ++ digits))
      ⟨Decimal.ofDigits digits, -(places : Int)⟩ := by
  have hlength : (List.replicate (places - digits.length) '0' ++ digits).length = places := by
    rw [List.length_append, List.length_replicate]
    omega
  have hbehind : IsDigits (List.replicate (places - digits.length) '0' ++ digits) := by
    refine ⟨List.ne_nil_of_length_pos (by omega), fun char hchar => ?_⟩
    rcases List.mem_append.1 hchar with hchar | hchar
    · rw [List.eq_of_mem_replicate hchar]
      rfl
    · exact hdigits char hchar
  have pointed := IsPointed.mk .zero hbehind
  rwa [← List.append_assoc, ← List.replicate_one, List.replicate_append_replicate,
    ofDigits_replicate_append, hlength] at pointed

/-- Putting a point among the digits of a number. -/
theorem isPointed_insertPoint (significand n : Nat) :
    IsPointed (Decimal.insertPoint (Nat.toDigits 10 significand) (n + 1)).toList
      ⟨significand, .negSucc n⟩ := by
  rw [Decimal.insertPoint]
  split
  · next henough =>
    have pointed := isPointed_take_drop (isInteger_toDigits significand) n.succ_pos henough
    rw [ofDigits_toDigits, Int.neg_ofNat_succ] at pointed
    simpa using pointed
  · next hfew =>
    have pointed := isPointed_zeros (isDigit_toDigits significand) n.succ_pos (Nat.not_lt.1 hfew)
    rw [ofDigits_toDigits, Int.neg_ofNat_succ] at pointed
    simpa [Decimal.zeros] using pointed

/-- A decimal with a point stands for a floating-point number. -/
theorem IsPointed.number {t : List Char} {d : Decimal} (h : IsPointed t d) (negative : Bool) :
    ∃ n, IsNumeral (signChars negative ++ t) n ∧ n.Denotes (.float (ofDecimal negative d)) := by
  cases h with
  | @mk integer fraction hinteger hfraction =>
    have numeral := IsNumeral.mk (isSign_signChars negative) hinteger (.some hfraction) .none
    rw [List.append_nil, List.append_assoc] at numeral
    have denotes : (Numeral.mk negative integer (some fraction) none).Denotes _ :=
      .float (.inl (Option.some_ne_none fraction))
    exact ⟨_, numeral, by simpa [Numeral.toDecimal] using denotes⟩

/-! ## Whole numbers without a point -/

/-- Below the limit there is a whole number of 64 bits with either sign. -/
theorem toInt_ofInt_withSign (negative : Bool) {size : Nat} (h : size < wholeLimit) :
    (Int64.ofInt (withSign negative size)).toInt = withSign negative size := by
  have hlimit : (wholeLimit : Int) = 9223372036854775808 := rfl
  refine Int64.toInt_ofInt_of_le ?_ ?_
  · rw [withSign]
    split <;> omega
  · rw [withSign]
    split <;> omega

/-- Below the limit a whole number stands for itself. -/
theorem Numeral.denotes_of_lt {negative : Bool} {size : Nat} (h : size < wholeLimit) :
    (ofNat negative size).Denotes (.integer (Int64.ofInt (withSign negative size))) := by
  refine .integer rfl rfl ?_
  rw [written_ofNat]
  exact toInt_ofInt_withSign negative h

/-- Above the limit it stands for a floating-point number. -/
theorem Numeral.denotes_of_gt (negative : Bool) {size : Nat} (h : wholeLimit < size) :
    (ofNat negative size).Denotes (.float (ofDecimal negative ⟨size, 0⟩)) := by
  have hlimit : (wholeLimit : Int) = 9223372036854775808 := rfl
  have denotes : (ofNat negative size).Denotes _ := .float <| .inr <| .inr fun value hvalue => by
    have hlow : (-9223372036854775808 : Int) ≤ value.toInt := value.minValue_le_toInt
    have hhigh : value.toInt ≤ 9223372036854775807 := value.toInt_le
    rw [hvalue, written_ofNat] at hlow hhigh
    cases negative with
    | false => exact absurd (show (size : Int) ≤ _ from hhigh) (by omega)
    | true => exact absurd (show _ ≤ -(size : Int) from hlow) (by omega)
  simpa [ofNat, toDecimal, ofDigits_toDigits] using denotes

/-! ## Magnitudes -/

variable {rank : Nat}

/-- Small whole numbers are printed with one decimal place. -/
theorem isPointed_of_small (hrank : rank ≤ infinity)
    (h : units rank % unitsPerOne = 0 ∧ units rank < Nat.pow 10 16 * unitsPerOne) :
    ∃ d, IsPointed (floatMagnitude rank).toList d ∧ rankOfDecimal d = rank := by
  have zero : IsDigits ['0'] := ⟨List.cons_ne_nil _ _, List.forall_mem_singleton.2 rfl⟩
  have pointed := IsPointed.mk (isInteger_toDigits (units rank / unitsPerOne)) zero
  have hdigits : Decimal.ofDigits (Nat.toDigits 10 (units rank / unitsPerOne) ++ ['0']) =
      10 * (units rank / unitsPerOne) := by
    rw [ofDigits_append_zero, ofDigits_toDigits]
  rw [hdigits] at pointed
  refine ⟨⟨10 * (units rank / unitsPerOne), .negSucc 0⟩, ?_, rankOfDecimal_negSucc_of_eq hrank ?_⟩
  · rw [floatMagnitude, if_pos h]
    simpa using pointed
  · rw [Nat.mul_assoc, Nat.div_mul_cancel (Nat.dvd_of_mod_eq_zero h.1), Nat.mul_comm]

/-- What is not a whole number is printed with a point. -/
theorem isPointed_of_not_whole (hrank : rank < infinity) (h : units rank % unitsPerOne ≠ 0) :
    ∃ d, IsPointed (floatMagnitude rank).toList d ∧ rankOfDecimal d = rank := by
  have hexponent := mt (exponent_nonneg_iff hrank).1 h
  have read := rankOfDecimal_shortest (Nat.le_of_lt hrank)
  have hprinted : floatMagnitude rank = (shortest rank).render := by
    rw [floatMagnitude, if_neg fun small => h small.1]
  rcases hshortest : shortest rank with ⟨significand, exponent⟩
  rw [hshortest] at hexponent read hprinted
  cases exponent with
  | ofNat power => exact absurd (Int.natCast_nonneg power) hexponent
  | negSucc n =>
    refine ⟨_, ?_, read⟩
    rw [hprinted, Decimal.render]
    simpa using isPointed_insertPoint significand n

/-- Large whole numbers are not zero. -/
theorem wholeOf_pos_of_large (hrank : rank < infinity) (whole : units rank % unitsPerOne = 0)
    (hlarge : Nat.pow 10 16 * unitsPerOne ≤ units rank) : 0 < wholeOf (shortest rank) := by
  apply wholeOf_pos hrank whole
  rintro rfl
  exact absurd hlarge (by decide +kernel)

/-- Large whole numbers are printed as the digits of a whole number. -/
theorem toList_floatMagnitude (hrank : rank < infinity) (whole : units rank % unitsPerOne = 0)
    (hlarge : Nat.pow 10 16 * unitsPerOne ≤ units rank) :
    (floatMagnitude rank).toList = Nat.toDigits 10 (wholeOf (shortest rank)) := by
  have hpos := wholeOf_pos_of_large hrank whole hlarge
  have hexponent := (exponent_nonneg_iff hrank).2 whole
  rw [floatMagnitude, if_neg fun small => Nat.not_lt.2 hlarge small.2]
  rcases hshortest : shortest rank with ⟨significand, exponent⟩
  rw [hshortest] at hpos hexponent
  cases exponent with
  | negSucc n => exact absurd hexponent (by simp)
  | ofNat power =>
    have hsignificand : 0 < significand := Nat.pos_of_mul_pos_right hpos
    rw [Decimal.render, wholeOf]
    simpa [Decimal.zeros] using (toDigits_mul_ten_pow hsignificand power).symm

/-! ## Numbers -/

/-- Whether a rank stands for a whole number that is large enough to be printed without a point, and small
enough to be a whole number of 64 bits. -/
def losesPoint (rank : Nat) : Bool :=
  units rank % unitsPerOne = 0 && Nat.pow 10 16 * unitsPerOne ≤ units rank &&
    units rank < wholeLimit * unitsPerOne

/-- A number loses its point exactly if it is whole, large enough and small enough. -/
theorem losesPoint_iff : losesPoint rank = true ↔ units rank % unitsPerOne = 0 ∧
    Nat.pow 10 16 * unitsPerOne ≤ units rank ∧ units rank < wholeLimit * unitsPerOne := by
  simp [losesPoint, and_assoc]

/-- What a finite floating-point number is read as once it is printed: a whole number if it loses its
point. -/
def rereadFloat (x : Binary64) : Number :=
  if losesPoint x.rank then .integer (Int64.ofInt (withSign x.negative (wholeOf (shortest x.rank))))
  else .float x

/-- What a number is read as once it is printed. What is not finite is printed as `null`. -/
def Number.reread : Number → Value
  | integer value => .number (.integer value)
  | float x => if x.isFinite then .number (rereadFloat x) else .null

/-- A finite floating-point number is printed as its sign and its magnitude. -/
theorem toList_render_float {x : Binary64} (hfinite : x.isFinite = true) :
    (Number.float x).render.toList = signChars x.negative ++ (floatMagnitude x.rank).toList := by
  rw [Number.render, if_pos hfinite, String.toList_append, signChars]
  split <;> rfl

/-- A finite number that is printed with a point is read back. -/
theorem isNumeral_of_isPointed {x : Binary64}
    (h : ∃ d, IsPointed (floatMagnitude x.rank).toList d ∧ rankOfDecimal d = x.rank) :
    ∃ n, IsNumeral (signChars x.negative ++ (floatMagnitude x.rank).toList) n ∧ n.Denotes (.float x) := by
  obtain ⟨d, pointed, read⟩ := h
  have number := pointed.number x.negative
  rwa [ofDecimal, read, ofRank_rank] at number

/-- Large whole numbers of which there are no whole numbers of 64 bits are read back. -/
theorem ofDecimal_wholeOf {x : Binary64} (hfinite : x.rank < infinity)
    (whole : units x.rank % unitsPerOne = 0) : ofDecimal x.negative ⟨wholeOf (shortest x.rank), 0⟩ = x := by
  have hexponent := (exponent_nonneg_iff hfinite).2 whole
  have read : rankOfDecimal ⟨wholeOf (shortest x.rank), .ofNat 0⟩ = x.rank := by
    rw [rankOfDecimal_ofNat, Nat.pow_eq, Nat.pow_zero, Nat.mul_one,
      nearestRank_wholeOf (Nat.le_of_lt hfinite) hexponent]
  rw [ofDecimal, show (0 : Int) = .ofNat 0 from rfl, read, ofRank_rank]

/-- A finite number is printed as the text of the number that it comes back as. -/
theorem isNumeral_float {x : Binary64} (hfinite : x.rank < infinity) :
    ∃ n, IsNumeral (signChars x.negative ++ (floatMagnitude x.rank).toList) n ∧
      n.Denotes (rereadFloat x) := by
  by_cases whole : units x.rank % unitsPerOne = 0
  · rcases Nat.lt_or_ge (units x.rank) (Nat.pow 10 16 * unitsPerOne) with small | large
    · rw [rereadFloat, if_neg fun h => Nat.not_lt.2 (losesPoint_iff.1 h).2.1 small]
      exact isNumeral_of_isPointed (isPointed_of_small (Nat.le_of_lt hfinite) ⟨whole, small⟩)
    · -- only digits are printed, and what they stand for depends on how the whole number they write compares
      -- with the limit; that number is not the magnitude, but it is on the same side of the limit
      rw [toList_floatMagnitude hfinite whole large]
      refine ⟨_, isNumeral_ofNat x.negative _, ?_⟩
      rcases Nat.lt_or_ge (units x.rank) (wholeLimit * unitsPerOne) with below | above
      · rw [rereadFloat, if_pos (losesPoint_iff.2 ⟨whole, large, below⟩)]
        exact Numeral.denotes_of_lt (wholeOf_lt hfinite whole below)
      · have hlimit : wholeLimit < wholeOf (shortest x.rank) :=
          Nat.lt_of_not_le fun h => Nat.not_lt.2 above (units_lt_of_wholeOf_le hfinite whole h)
        rw [rereadFloat, if_neg fun h => Nat.not_lt.2 above (losesPoint_iff.1 h).2.2]
        have denotes := Numeral.denotes_of_gt x.negative hlimit
        rwa [ofDecimal_wholeOf hfinite whole] at denotes
  · rw [rereadFloat, if_neg fun h => whole (losesPoint_iff.1 h).1]
    exact isNumeral_of_isPointed (isPointed_of_not_whole hfinite whole)

/-- A number is printed as the text of what it comes back as. -/
theorem isValue_number (n : Number) : IsValue (Value.number n).chars n.reread := by
  cases n with
  | integer value => exact isValue_integer value
  | float x =>
    rw [Number.reread]
    split
    · next hfinite =>
      obtain ⟨n, numeral, denotes⟩ := isNumeral_float (x := x) (by simpa [isFinite] using hfinite)
      rw [Value.chars, toList_render_float hfinite]
      exact .number numeral denotes
    · next hfinite =>
      rw [Value.chars, Number.render, if_neg hfinite]
      exact .null

end Parsing.Json
