import Parsing.Json.Grammar
import Parsing.Proofs.Json.Syntax
import Parsing.Proofs.Parser.Deciding

/-!
# Parsing numbers

The parser for numbers decides which texts are numbers, and it accepts every number as a whole unless
what follows could continue it. A fraction or an exponent that is begun must be finished: there is no
way back to the number without it.
-/

namespace Parsing.Json

open Parsing.Parser

variable {c : TextCursor} {t rest : List Char} {grammar : Grammar Rule}

/-! ## Digits -/

/-- The digits that the grammar lists are the decimal digits. -/
theorem mem_digits_iff {char : Char} : char ∈ "0123456789".toList ↔ char.isDigit = true := by
  constructor
  · intro h
    have all : ∀ digit ∈ "0123456789".toList, digit.isDigit = true := forall_mem_of_all (by decide)
    exact all char h
  · intro h
    obtain ⟨hlow, hhigh⟩ : 48 ≤ char.toNat ∧ char.toNat ≤ 57 := by
      simpa [Char.isDigit, UInt32.le_iff_toNat_le] using h
    have all : ∀ code < 58, 48 ≤ code → Char.ofNat code ∈ "0123456789".toList := by decide
    rw [← Char.ofNat_toNat char]
    exact all char.toNat (by omega) hlow

/-- Only zero is left out of the digits that a number may start with. -/
theorem mem_nonzero_iff {char : Char} :
    char ∈ "123456789".toList ↔ char.isDigit = true ∧ char ≠ '0' := by
  rw [← mem_digits_iff]
  have split : "0123456789".toList = '0' :: "123456789".toList := by decide
  have hzero : '0' ∉ "123456789".toList := by decide
  rw [split, List.mem_cons]
  constructor
  · intro h
    refine ⟨.inr h, ?_⟩
    rintro rfl
    exact hzero h
  · rintro ⟨h | h, hne⟩
    · exact absurd h hne
    · exact h

/-- No digit comes next. -/
abbrev NoDigit (rest : List Char) : Prop := NotNext (fun char => char.isDigit = true) rest

/-- A digit is accepted. -/
theorem digit_accepts {char : Char} (h : c.rest = char :: rest) (hchar : char.isDigit = true) :
    (digit : Parser Rule Char).Accepts grammar c char [char] :=
  oneOf_accepts h (mem_digits_iff.2 hchar)

/-- Where no digit comes next it is rejected. -/
theorem digit_rejects (h : NoDigit c.rest) : (digit : Parser Rule Char).Rejects grammar c [] :=
  oneOf_rejects (h.mono fun _ => mem_digits_iff.1)

/-- A digit is read, or the parser rejects. -/
theorem decides_digit :
    (digit : Parser Rule Char).Decides grammar (fun t char => t = [char] ∧ char.isDigit = true) c :=
  (decides_oneOf _).mono fun _ _ h => h.imp_right mem_digits_iff.1

/-- Digits are repeated as long as there are any. -/
theorem collect_digit_accepts {newestFirst : List Char} (h : ∀ char ∈ t, char.isDigit = true)
    (hrest : c.rest = t ++ rest) (hend : NoDigit rest) :
    (collect (tryItem digit) newestFirst : Parser Rule (List Char)).Accepts grammar c
      (newestFirst.reverse ++ t) t :=
  collect_oneOf_accepts (fun char hchar => mem_digits_iff.2 (h char hchar)) hrest
    (hend.mono fun _ => mem_digits_iff.1)

/-- Digits are put behind those from before. -/
theorem decides_collect_digit (newestFirst : List Char) :
    (collect (tryItem digit) newestFirst : Parser Rule (List Char)).Decides grammar
      (fun t value => value = newestFirst.reverse ++ t ∧ ∀ char ∈ t, char.isDigit = true) c := by
  refine (Decides.collect_tryItem (fun _ _ => decides_digit) (by simp) newestFirst).mono ?_
  rintro t value ⟨more, hmore, rfl⟩
  obtain ⟨rfl, hdigits⟩ := hmore.of_chars
  exact ⟨rfl, hdigits⟩

/-- What begins with digits does not begin with anything else. -/
theorem IsDigits.notNext (h : IsDigits t) {p : Char → Prop} (hp : ∀ char, p char → char.isDigit = false) :
    NotNext p (t ++ rest) := by
  obtain ⟨hne, hall⟩ := h
  obtain ⟨first, more, rfl⟩ := List.exists_cons_of_ne_nil hne
  rw [List.cons_append, notNext_cons]
  intro hfirst
  have hdigit := hall first (by simp)
  rw [hp first hfirst] at hdigit
  cases hdigit

/-- Digits are accepted up to where they end. -/
theorem digits_accepts (h : IsDigits t) (hrest : c.rest = t ++ rest) (hend : NoDigit rest) :
    (digits : Parser Rule (List Char)).Accepts grammar c t t := by
  obtain ⟨hne, hall⟩ := h
  obtain ⟨first, more, rfl⟩ := List.exists_cons_of_ne_nil hne
  have hfirst : first.isDigit = true := hall first (by simp)
  have hmore : ∀ char ∈ more, char.isDigit = true := fun char hchar => hall char (by simp [hchar])
  have others : (collect (tryItem digit) [first]).Accepts grammar (c.past [first]) _ more :=
    collect_digit_accepts hmore (TextCursor.rest_past hrest) hend
  exact (digit_accepts hrest hfirst).bind others

/-- Digits are read, at least one, or the parser rejects. -/
theorem decides_digits :
    (digits : Parser Rule (List Char)).Decides grammar (fun t value => value = t ∧ IsDigits t) c := by
  refine decides_digit.bind fun t rest first hrest ht => (decides_collect_digit [first]).mono ?_
  obtain ⟨rfl, hfirst⟩ := ht
  rintro u value ⟨rfl, hall⟩
  exact ⟨rfl, by simp, by simpa [hfirst] using hall⟩

/-! ## Parts of a number -/

/-- An integer part is accepted up to where its digits end. -/
theorem integerPart_accepts (h : IsInteger t) (hrest : c.rest = t ++ rest) (hend : NoDigit rest) :
    (integerPart : Parser Rule (List Char)).Accepts grammar c t t := by
  cases h with
  | zero =>
    have zero : (literal "0" : Parser Rule String).Accepts grammar c "0" ['0'] := literal_accepts hrest
    have hpast : (c.past ['0']).rest = rest := TextCursor.rest_past hrest
    have none : (optional (lookAhead digit) : Parser Rule (Option Char)).Accepts grammar (c.past ['0'])
        none [] := (digit_rejects (by rwa [hpast])).lookAhead.optional
    exact (zero.chain (none.bind (unit_accepts ['0'] _))).choice
  | @nonzero first more hfirst hzero hmore =>
    have other : NotNext (· = '0') c.rest := by simpa [hrest] using hzero
    have rejected : (literal "0" : Parser Rule String).Rejects grammar c [] :=
      literal_rejects_of_notNext rfl other
    have start : (oneOf "123456789" : Parser Rule Char).Accepts grammar c first [first] :=
      oneOf_accepts hrest (mem_nonzero_iff.2 ⟨hfirst, hzero⟩)
    have others : (many digit : Parser Rule (List Char)).Accepts grammar (c.past [first]) more more :=
      collect_digit_accepts hmore (TextCursor.rest_past hrest) hend
    exact rejected.bind.choice_accepts (start.bind others.map)

/-- An integer part is read, without leading zeros, or the parser rejects. -/
theorem decides_integerPart :
    (integerPart : Parser Rule (List Char)).Decides grammar (fun t value => value = t ∧ IsInteger t) c := by
  refine Decides.choice ?_ ?_
  · refine (decides_literal "0").chain fun t rest _ hrest ht => ?_
    obtain ⟨rfl, -⟩ := ht
    have next : (optional (lookAhead digit) : Parser Rule (Option Char)).Decides grammar
        (fun t _ => t = []) (c.past "0".toList) :=
      (decides_digit.lookAhead.mono fun _ _ h => h.1).optional rfl
    refine next.bind fun u rest found hrest hu => ?_
    obtain rfl := hu
    cases found with
    | none => exact decides_unit ⟨rfl, .zero⟩
    | some char => exact decides_fail _
  · refine (decides_oneOf _).bind fun t rest first hrest ht => ?_
    obtain ⟨rfl, hfirst⟩ := ht
    obtain ⟨hfirst, hzero⟩ := mem_nonzero_iff.1 hfirst
    refine ((decides_collect_digit []).mono ?_).map
    rintro u value ⟨rfl, hall⟩
    exact ⟨rfl, .nonzero hfirst hzero hall⟩

/-- A sign is accepted, which may be missing. -/
theorem sign_accepts {negative : Bool} (h : IsSign t negative) (hrest : c.rest = t ++ rest)
    (hend : NotNext (· = '-') rest) :
    (map Option.isSome (optional (literal "-")) : Parser Rule Bool).Accepts grammar c negative t := by
  cases h with
  | none => exact (literal_rejects_of_notNext rfl (by rwa [hrest])).optional.map
  | minus => exact (literal_accepts hrest).optional.map

/-- A sign is read if there is one. -/
theorem decides_sign :
    (map Option.isSome (optional (literal "-")) : Parser Rule Bool).Decides grammar IsSign c := by
  refine Decides.map (Decides.optional ((decides_literal "-").mono ?_) .none)
  rintro t text ⟨rfl, -⟩
  exact .minus

/-- A fraction is accepted, which may be missing. -/
theorem fraction_accepts {places : Option (List Char)} (h : IsFraction t places)
    (hrest : c.rest = t ++ rest) (hdigit : NoDigit rest) (hpoint : NotNext (· = '.') rest) :
    (optional fractionPart : Parser Rule (Option (List Char))).Accepts grammar c places t := by
  cases h with
  | none => exact (literal_rejects_of_notNext rfl (by rwa [hrest])).bind.optional
  | @some digits hdigits =>
    have point : (literal "." : Parser Rule String).Accepts grammar c "." ['.'] := literal_accepts hrest
    exact (point.chain (digits_accepts hdigits (TextCursor.rest_past hrest) hdigit)).optional

/-- A fraction is read if there is one, or the parser rejects. -/
theorem decides_fraction :
    (optional fractionPart : Parser Rule (Option (List Char))).Decides grammar IsFraction c := by
  refine Decides.optional ((decides_literal ".").chain fun t rest _ _ ht => ?_) .none
  obtain ⟨rfl, -⟩ := ht
  refine decides_digits.mono ?_
  rintro u value ⟨rfl, hdigits⟩
  exact .some hdigits

/-- No exponent is begun. -/
abbrev NoExponent (rest : List Char) : Prop := NotNext (fun char => char = 'e' ∨ char = 'E') rest

/-- Two letters start an exponent. -/
theorem mem_exponentLetters_iff {char : Char} : char ∈ "eE".toList ↔ char = 'e' ∨ char = 'E' := by
  simp

/-- The sign of an exponent is accepted, which may be missing and is negative only if it is a minus. -/
theorem exponentSign_accepts (grammar : Grammar Rule) {sign : List Char} {negative : Bool}
    (h : IsExponentSign sign negative) (hrest : c.rest = sign ++ rest)
    (hend : NotNext (fun char => char = '+' ∨ char = '-') rest) :
    ∃ char, (optional (oneOf "+-") : Parser Rule (Option Char)).Accepts grammar c char sign ∧
      (negative = true ↔ char = some '-') := by
  cases h with
  | none =>
    rw [List.nil_append] at hrest
    have rejected : (oneOf "+-" : Parser Rule Char).Rejects grammar c [] :=
      oneOf_rejects ((hrest ▸ hend).mono (by simp))
    exact ⟨none, rejected.optional, by simp⟩
  | plus => exact ⟨some '+', (oneOf_accepts hrest (by simp)).optional, by simp⟩
  | minus => exact ⟨some '-', (oneOf_accepts hrest (by simp)).optional, by simp⟩

/-- An exponent is accepted, which may be missing. -/
theorem exponent_accepts {power : Option NumeralExponent} (h : IsExponent t power)
    (hrest : c.rest = t ++ rest) (hdigit : NoDigit rest) (hletter : NoExponent rest) :
    (optional exponentPart : Parser Rule (Option NumeralExponent)).Accepts grammar c power t := by
  cases h with
  | none =>
    refine Rejects.optional (Rejects.bind (oneOf_rejects ?_))
    rw [hrest]
    exact NotNext.mono hletter fun _ => mem_exponentLetters_iff.1
  | @some letter sign digits negative hletter hsign hdigits =>
    have start : (oneOf "eE" : Parser Rule Char).Accepts grammar c letter [letter] :=
      oneOf_accepts hrest (mem_exponentLetters_iff.2 hletter)
    have hpast : (c.past [letter]).rest = sign ++ (digits ++ rest) := by
      rw [← List.append_assoc]
      exact TextCursor.rest_past hrest
    have other : NotNext (fun char => char = '+' ∨ char = '-') (digits ++ rest) :=
      hdigits.notNext (by rintro char (rfl | rfl) <;> rfl)
    obtain ⟨char, signed, hchar⟩ := exponentSign_accepts grammar hsign hpast other
    obtain rfl : negative = decide (char = some '-') := by simp only [← hchar, Bool.decide_eq_true]
    exact (start.chain
      (signed.pair (digits_accepts hdigits (TextCursor.rest_past hpast) hdigit)).map).optional

/-- An exponent is read if there is one, or the parser rejects. -/
theorem decides_exponent :
    (optional exponentPart : Parser Rule (Option NumeralExponent)).Decides grammar IsExponent c := by
  refine Decides.optional ((decides_oneOf "eE").chain fun t rest letter _ ht => ?_) .none
  obtain ⟨rfl, hletter⟩ := ht
  have sign (d : TextCursor) : (optional (oneOf "+-") : Parser Rule (Option Char)).Decides grammar
      (fun s char => IsExponentSign s (char = some '-')) d := by
    refine Decides.optional ((decides_oneOf _).mono ?_) .none
    rintro s char ⟨rfl, hchar⟩
    rcases (show char = '+' ∨ char = '-' by simpa using hchar) with rfl | rfl
    · exact .plus
    · exact .minus
  refine ((sign _).bind fun s rest' char _ hs => (decides_digits.mono ?_).map).map
  rintro u value ⟨rfl, hdigits⟩
  exact .some (mem_exponentLetters_iff.1 hletter) hs hdigits

/-! ## Numerals -/

/-- What follows cannot continue a number. -/
def EndsNumber (rest : List Char) : Prop :=
  NoDigit rest ∧ NotNext (· = '.') rest ∧ NoExponent rest

/-- Behind a fraction stands no digit and no second point. -/
theorem IsExponent.notNext {power : Option NumeralExponent} (h : IsExponent t power)
    (hend : EndsNumber rest) : NoDigit (t ++ rest) ∧ NotNext (· = '.') (t ++ rest) := by
  cases h with
  | none => exact ⟨hend.1, hend.2.1⟩
  | some hletter => rcases hletter with rfl | rfl <;> simp

/-- Behind the integer part stands no digit. -/
theorem IsFraction.notNext {places : Option (List Char)} (h : IsFraction t places) (hrest : NoDigit rest) :
    NoDigit (t ++ rest) := by
  cases h with
  | none => exact hrest
  | some => simp

/-- Behind the sign stands a digit. -/
theorem IsInteger.notNext (h : IsInteger t) : NotNext (· = '-') (t ++ rest) := by
  cases h with
  | zero => simp
  | nonzero hfirst =>
    rw [List.cons_append, notNext_cons]
    rintro rfl
    cases hfirst

/-- A number is accepted as a whole if nothing behind it could be a part of it. -/
theorem numeral_accepts {n : Numeral} (h : IsNumeral t n) (hrest : c.rest = t ++ rest)
    (hend : EndsNumber rest) : (numeral : Parser Rule Numeral).Accepts grammar c n t := by
  obtain ⟨hsign, hinteger, hfraction, hexponent⟩ := h
  simp only [List.append_assoc] at hrest
  obtain ⟨hdigit, hpoint⟩ := hexponent.notNext hend
  have hinteger' := TextCursor.rest_past hrest
  have hfraction' := TextCursor.rest_past hinteger'
  rw [← TextCursor.past_append] at hfraction'
  have hexponent' := TextCursor.rest_past hfraction'
  rw [← TextCursor.past_append] at hexponent'
  exact ((((sign_accepts hsign hrest hinteger.notNext).pair
    (integerPart_accepts hinteger hinteger' (hfraction.notNext hdigit))).pair
    (fraction_accepts hfraction hfraction' hdigit hpoint)).pair
    (exponent_accepts hexponent hexponent' hend.1 hend.2.2)).map

/-- A number is read with its parts, or the parser rejects. -/
theorem decides_numeral : (numeral : Parser Rule Numeral).Decides grammar IsNumeral c := by
  refine Decides.map ((((decides_sign.pair fun _ => decides_integerPart).pair
    fun _ => decides_fraction).pair fun _ => decides_exponent).mono ?_)
  rintro _ ⟨⟨⟨negative, integer⟩, places⟩, power⟩
    ⟨_, exponent, rfl, ⟨_, fraction, rfl, ⟨sign, _, rfl, hsign, rfl, hinteger⟩, hfraction⟩, hexponent⟩
  exact .mk hsign hinteger hfraction hexponent

/-- Digits are read as the number that they write. -/
theorem foldl_digitValue (h : ∀ char ∈ t, char.isDigit = true) (init : Nat) :
    t.foldl (fun n char => 10 * n + Decimal.digitValue char) init = Nat.ofDigitChars 10 t init := by
  induction t generalizing init with
  | nil => rfl
  | cons char t ih =>
    have hchar : '0' ≤ char ∧ char ≤ '9' := by simpa [Char.isDigit, Char.le_def] using h char (by simp)
    rw [List.foldl_cons, Nat.ofDigitChars_cons, Decimal.digitValue, if_pos hchar]
    exact ih (fun other hother => h other (by simp [hother])) _

/-- An integer part is made of digits. -/
theorem IsInteger.isDigit (h : IsInteger t) : ∀ char ∈ t, char.isDigit = true := by
  cases h with
  | zero => simp
  | nonzero hfirst _ hrest => simpa [hfirst] using hrest

/-- A numeral is whole if it is written so and its value is one of 64 bits. -/
theorem Numeral.isInteger_iff {n : Numeral} : n.isInteger = true ↔
    n.fraction = none ∧ n.exponent = none ∧ ∃ value : Int64, value.toInt = n.toInt := by
  have hfits : (Int64.minValue.toInt ≤ n.toInt ∧ n.toInt ≤ Int64.maxValue.toInt) ↔
      ∃ value : Int64, value.toInt = n.toInt := by
    constructor
    · rintro ⟨hlow, hhigh⟩
      exact ⟨.ofInt n.toInt, Int64.toInt_ofInt_of_le hlow (Int.lt_of_le_sub_one hhigh)⟩
    · rintro ⟨value, hvalue⟩
      rw [← hvalue]
      exact ⟨value.minValue_le_toInt, value.toInt_le⟩
  rw [← hfits]
  simp [isInteger, and_assoc]

/-- The number that is computed for a numeral is the one that it stands for. -/
theorem Numeral.denotes_iff {n : Numeral} {number : Number} (h : IsInteger n.integer) :
    n.Denotes number ↔ number = n.toNumber := by
  have hwritten : n.written = n.toInt := by
    rw [written, toInt, Decimal.ofDigits, foldl_digitValue h.isDigit]
  constructor
  · rintro (⟨hfraction, hexponent, hvalue⟩ | hfloat)
    · rw [hwritten] at hvalue
      rw [toNumber, if_pos (isInteger_iff.2 ⟨hfraction, hexponent, _, hvalue⟩), ← hvalue,
        Int64.ofInt_toInt]
    · rw [hwritten] at hfloat
      have hnot : ¬n.isInteger = true := by
        intro hinteger
        obtain ⟨hfraction, hexponent, value, hvalue⟩ := isInteger_iff.1 hinteger
        rcases hfloat with h | h | h
        · exact h hfraction
        · exact h hexponent
        · exact h value hvalue
      rw [toNumber, if_neg hnot]
  · rintro rfl
    rw [toNumber]
    split
    · next hinteger =>
      obtain ⟨hfraction, hexponent, value, hvalue⟩ := isInteger_iff.1 hinteger
      rw [← hvalue, Int64.ofInt_toInt]
      exact .integer hfraction hexponent (hvalue.trans hwritten.symm)
    · next hinteger =>
      refine .float ?_
      rw [hwritten]
      simpa [isInteger_iff, Classical.or_iff_not_imp_left] using hinteger

/-- A number stands for what the parser makes of it, and for nothing else. -/
theorem IsNumeral.denotes_iff {n : Numeral} {number : Number} (h : IsNumeral t n) :
    n.Denotes number ↔ number = n.toNumber := by
  obtain ⟨_, hinteger, _, _⟩ := h
  exact Numeral.denotes_iff hinteger

/-- A number is accepted as a whole, with what it stands for. -/
theorem number_accepts {n : Numeral} {value : Number} (h : IsNumeral t n) (hvalue : n.Denotes value)
    (hrest : c.rest = t ++ rest) (hend : EndsNumber rest) :
    (number : Parser Rule Number).Accepts grammar c value t := by
  rw [h.denotes_iff] at hvalue
  subst hvalue
  exact (numeral_accepts h hrest hend).map

/-- Nothing but numbers is accepted, with what they stand for. -/
theorem decides_number : (number : Parser Rule Number).Decides grammar
    (fun t value => ∃ n, IsNumeral t n ∧ n.Denotes value) c :=
  (decides_numeral.mono fun _ n h => ⟨n, h, h.denotes_iff.2 rfl⟩).map

/-- Where neither a sign nor a digit comes next there is no number, and nothing is consumed. -/
theorem number_rejects (h : NotNext (fun char => char = '-' ∨ char.isDigit = true) c.rest) :
    (number : Parser Rule Number).Rejects grammar c [] := by
  have sign : (map Option.isSome (optional (literal "-")) : Parser Rule Bool).Accepts grammar c false [] :=
    sign_accepts .none rfl (h.mono fun _ => .inl)
  have hzero : (literal "0" : Parser Rule String).Rejects grammar c [] :=
    literal_rejects_of_notNext rfl (h.mono (by rintro char rfl; exact .inr rfl))
  have hnonzero : (oneOf "123456789" : Parser Rule Char).Rejects grammar c [] :=
    oneOf_rejects (h.mono fun _ hchar => .inr (mem_nonzero_iff.1 hchar).1)
  have hinteger : (integerPart : Parser Rule (List Char)).Rejects grammar c [] :=
    hzero.bind.choice_rejects hnonzero.bind
  exact ((sign.bind_rejects hinteger.map).bind.bind).map.map

end Parsing.Json
