/-!
# UTF-16

A character is written as one unit of 16 bits, or as two if its code point needs more: a high surrogate
and a low one. Units are the UTF-16 form of some characters exactly if surrogates come in such pairs only,
which can be told by looking at the neighbours of each unit.
-/

namespace Parsing.Text.Utf16

/-- The unit is the first half of a pair. -/
def IsHigh (unit : UInt16) : Prop := 0xd800 ≤ unit.toNat ∧ unit.toNat < 0xdc00

/-- The unit is the second half of a pair. -/
def IsLow (unit : UInt16) : Prop := 0xdc00 ≤ unit.toNat ∧ unit.toNat < 0xe000

instance (unit : UInt16) : Decidable (IsHigh unit) := inferInstanceAs (Decidable (_ ∧ _))

instance (unit : UInt16) : Decidable (IsLow unit) := inferInstanceAs (Decidable (_ ∧ _))

/-- The units of a character. A pair holds what exceeds 16 bits: the upper ten bits of it and the lower
ten. -/
def encodeChar (char : Char) : List UInt16 :=
  if char.toNat < 0x10000 then [.ofNat char.toNat]
  else
    let excess := char.toNat - 0x10000
    [.ofNat (0xd800 + excess / 0x400), .ofNat (0xdc00 + excess % 0x400)]

/-- The UTF-16 form of characters. -/
def encode (chars : List Char) : List UInt16 := chars.flatMap encodeChar

/-- Every high surrogate is immediately followed by a low one, and every low surrogate comes immediately
behind a high one. -/
structure WellFormed (units : List UInt16) : Prop where
  followed : ∀ index unit, units[index]? = some unit → IsHigh unit →
    ∃ next, units[index + 1]? = some next ∧ IsLow next
  notFirst : ∀ unit, units[0]? = some unit → ¬IsLow unit
  preceded : ∀ index unit, units[index + 1]? = some unit → IsLow unit →
    ∃ previous, units[index]? = some previous ∧ IsHigh previous

variable {char : Char} {unit high low : UInt16} {units : List UInt16}

/-- No unit is both halves of a pair. -/
theorem IsHigh.not_isLow (h : IsHigh unit) : ¬IsLow unit := fun other => by
  unfold IsHigh at h
  unfold IsLow at other
  omega

/-! ## Characters -/

/-- One unit is the code point of its character. -/
theorem encodeChar_eq_single_iff : encodeChar char = [unit] ↔ char.toNat = unit.toNat := by
  have bound := unit.toNat_lt
  rw [encodeChar]
  split
  · next small =>
    rw [List.singleton_inj, ← UInt16.toNat_inj, UInt16.toNat_ofNat_of_lt' small]
  · next large =>
    refine ⟨fun same => ?_, fun same => by omega⟩
    cases congrArg List.length same

/-- Two units are a pair of surrogates, which hold the code point of their character. -/
theorem encodeChar_eq_pair_iff : encodeChar char = [high, low] ↔
    IsHigh high ∧ IsLow low ∧
      char.toNat = 0x10000 + (high.toNat - 0xd800) * 0x400 + (low.toNat - 0xdc00) := by
  have bound : char.toNat < 0x110000 := by
    have valid : char.toNat.isValidChar := char.valid
    unfold Nat.isValidChar at valid
    omega
  rw [encodeChar, IsHigh, IsLow]
  split
  · next small =>
    refine ⟨fun same => ?_, fun ⟨_, _, same⟩ => by omega⟩
    cases congrArg List.length same
  · next large =>
    have upper := UInt16.toNat_ofNat_of_lt' (n := 0xd800 + (char.toNat - 0x10000) / 0x400)
      (by simp only [UInt16.size]; omega)
    have lower := UInt16.toNat_ofNat_of_lt' (n := 0xdc00 + (char.toNat - 0x10000) % 0x400)
      (by simp only [UInt16.size]; omega)
    rw [List.cons.injEq, List.singleton_inj, ← UInt16.toNat_inj, ← UInt16.toNat_inj, upper, lower]
    omega

/-- A character takes one unit or two. -/
theorem encodeChar_cases (char : Char) :
    (∃ unit, encodeChar char = [unit]) ∨ ∃ high low, encodeChar char = [high, low] := by
  rw [encodeChar]
  split
  · exact .inl ⟨_, rfl⟩
  · exact .inr ⟨_, _, rfl⟩

/-- A surrogate on its own is no character. -/
theorem not_surrogate_of_single (h : encodeChar char = [unit]) : ¬IsHigh unit ∧ ¬IsLow unit := by
  have valid : char.toNat.isValidChar := char.valid
  rw [encodeChar_eq_single_iff.1 h, Nat.isValidChar] at valid
  unfold IsHigh IsLow
  omega

/-- Every other unit is a character. -/
theorem exists_encodeChar_eq_single (notHigh : ¬IsHigh unit) (notLow : ¬IsLow unit) :
    ∃ char, encodeChar char = [unit] := by
  have valid : unit.toNat.isValidChar := by
    have bound := unit.toNat_lt
    unfold IsHigh at notHigh
    unfold IsLow at notLow
    unfold Nat.isValidChar
    omega
  exact ⟨.ofNatAux unit.toNat valid, encodeChar_eq_single_iff.2 rfl⟩

/-- Every pair of surrogates is a character. -/
theorem exists_encodeChar_eq_pair (hhigh : IsHigh high) (hlow : IsLow low) :
    ∃ char, encodeChar char = [high, low] := by
  have valid : (0x10000 + (high.toNat - 0xd800) * 0x400 + (low.toNat - 0xdc00)).isValidChar := by
    unfold IsHigh at hhigh
    unfold IsLow at hlow
    unfold Nat.isValidChar
    omega
  exact ⟨.ofNatAux _ valid, encodeChar_eq_pair_iff.2 ⟨hhigh, hlow, rfl⟩⟩

/-! ## Lists of units -/

/-- The empty text has no units. -/
@[simp] theorem encode_nil : encode [] = [] := rfl

/-- The units of the first character come first. -/
@[simp] theorem encode_cons (char : Char) (chars : List Char) :
    encode (char :: chars) = encodeChar char ++ encode chars := rfl

/-- The empty list of units is well-formed. -/
theorem wellFormed_nil : WellFormed [] where
  followed _ _ found := by cases found
  notFirst _ found := by cases found
  preceded _ _ found := by cases found

/-- A unit that is no surrogate has nothing to do with its neighbours. -/
theorem wellFormed_cons_iff (notHigh : ¬IsHigh unit) (notLow : ¬IsLow unit) :
    WellFormed (unit :: units) ↔ WellFormed units := by
  constructor
  · intro h
    refine ⟨fun index => h.followed (index + 1), fun other found isLow => ?_,
      fun index => h.preceded (index + 1)⟩
    obtain ⟨previous, same, isHigh⟩ := h.preceded 0 other found isLow
    cases same
    exact notHigh isHigh
  · intro h
    refine ⟨fun index other found isHigh => ?_, fun other found isLow => ?_,
      fun index other found isLow => ?_⟩
    · cases index with
      | zero =>
        cases found
        exact absurd isHigh notHigh
      | succ index => exact h.followed index other found isHigh
    · cases found
      exact notLow isLow
    · cases index with
      | zero => exact absurd isLow (h.notFirst other found)
      | succ index => exact h.preceded index other found isLow

/-- Nor has a pair. -/
theorem wellFormed_pair_iff (hhigh : IsHigh high) (hlow : IsLow low) :
    WellFormed (high :: low :: units) ↔ WellFormed units := by
  constructor
  · intro h
    refine ⟨fun index => h.followed (index + 2), fun other found isLow => ?_,
      fun index => h.preceded (index + 2)⟩
    obtain ⟨previous, same, isHigh⟩ := h.preceded 1 other found isLow
    cases same
    exact isHigh.not_isLow hlow
  · intro h
    refine ⟨fun index other found isHigh => ?_, fun other found isLow => ?_,
      fun index other found isLow => ?_⟩
    · match index with
      | 0 => exact ⟨low, rfl, hlow⟩
      | 1 =>
        cases found
        exact absurd hlow isHigh.not_isLow
      | index + 2 => exact h.followed index other found isHigh
    · cases found
      exact hhigh.not_isLow isLow
    · match index with
      | 0 => exact ⟨high, rfl, hhigh⟩
      | 1 => exact absurd isLow (h.notFirst other found)
      | index + 2 => exact h.preceded index other found isLow

/-- What characters are encoded as is well-formed. -/
theorem wellFormed_encode (chars : List Char) : WellFormed (encode chars) := by
  induction chars with
  | nil => exact wellFormed_nil
  | cons char chars ih =>
    rw [encode_cons]
    rcases encodeChar_cases char with ⟨unit, single⟩ | ⟨high, low, pair⟩
    · obtain ⟨notHigh, notLow⟩ := not_surrogate_of_single single
      rw [single]
      exact (wellFormed_cons_iff notHigh notLow).2 ih
    · obtain ⟨hhigh, hlow, -⟩ := encodeChar_eq_pair_iff.1 pair
      rw [pair]
      exact (wellFormed_pair_iff hhigh hlow).2 ih

/-- Units that are well-formed encode characters. -/
theorem WellFormed.exists_encode (h : WellFormed units) : ∃ chars, encode chars = units := by
  -- the front is one unit or a pair, so what is left is shorter
  induction hlength : units.length using Nat.strongRecOn generalizing units with
  | _ length ih =>
    cases units with
    | nil => exact ⟨[], rfl⟩
    | cons unit units =>
      by_cases hhigh : IsHigh unit
      · obtain ⟨low, second, hlow⟩ := h.followed 0 unit rfl hhigh
        obtain ⟨rest, rfl⟩ : ∃ rest, units = low :: rest := List.head?_eq_some_iff.1 (by
          rwa [List.head?_eq_getElem?])
        obtain ⟨char, pair⟩ := exists_encodeChar_eq_pair hhigh hlow
        obtain ⟨chars, rfl⟩ := ih rest.length (by simp only [← hlength, List.length_cons]; omega)
          ((wellFormed_pair_iff hhigh hlow).1 h) rfl
        exact ⟨char :: chars, by rw [encode_cons, pair]; rfl⟩
      · have notLow : ¬IsLow unit := h.notFirst unit rfl
        obtain ⟨char, single⟩ := exists_encodeChar_eq_single hhigh notLow
        obtain ⟨chars, rfl⟩ := ih units.length (by simp only [← hlength, List.length_cons]; omega)
          ((wellFormed_cons_iff hhigh notLow).1 h) rfl
        exact ⟨char :: chars, by rw [encode_cons, single]; rfl⟩

/-- Units are well-formed exactly if they encode characters. -/
theorem wellFormed_iff : WellFormed units ↔ ∃ chars, encode chars = units := by
  refine ⟨WellFormed.exists_encode, ?_⟩
  rintro ⟨chars, rfl⟩
  exact wellFormed_encode chars

end Parsing.Text.Utf16
