import Parsing.Json.Grammar
import Parsing.Proofs.Json.Syntax
import Parsing.Proofs.Parser.Deciding

/-!
# Parsing strings

The parser for strings decides which texts are strings, and it accepts every string as a whole, whatever
follows. The closing quote is tried before each character, and an escape before a character that stands
for itself.
-/

namespace Parsing.Json

open Parsing.Parser

variable {c : TextCursor} {t rest : List Char} {grammar : Grammar Rule}

/-! ## Units of UTF-16 -/

/-- The characters that the grammar lists are the hexadecimal digits, with their values. -/
theorem isHexDigit_iff {char : Char} {value : Nat} :
    IsHexDigit char value ↔ char ∈ "0123456789abcdefABCDEF".toList ∧ value = (hexValue char).toNat := by
  constructor
  · have lower : ∀ i (h : i < "0123456789abcdef".toList.length),
        "0123456789abcdef".toList[i] ∈ "0123456789abcdefABCDEF".toList ∧
          i = (hexValue "0123456789abcdef".toList[i]).toNat := by decide
    have upper : ∀ i (h : i < "0123456789ABCDEF".toList.length),
        "0123456789ABCDEF".toList[i] ∈ "0123456789abcdefABCDEF".toList ∧
          i = (hexValue "0123456789ABCDEF".toList[i]).toNat := by decide
    rintro (h | h)
    · obtain ⟨hlt, rfl⟩ := List.getElem?_eq_some_iff.1 h
      exact lower value hlt
    · obtain ⟨hlt, rfl⟩ := List.getElem?_eq_some_iff.1 h
      exact upper value hlt
  · rintro ⟨hchar, rfl⟩
    have all : ∀ char ∈ "0123456789abcdefABCDEF".toList,
        "0123456789abcdef".toList[(hexValue char).toNat]? = some char ∨
          "0123456789ABCDEF".toList[(hexValue char).toNat]? = some char := forall_mem_of_all (by decide)
    exact all char hchar

/-- The value of a hexadecimal digit is small. -/
theorem IsHexDigit.value_lt {char : Char} {value : Nat} (h : IsHexDigit char value) : value < 16 := by
  rcases h with h | h
  · exact (List.getElem?_eq_some_iff.1 h).1
  · exact (List.getElem?_eq_some_iff.1 h).1

/-- One more digit is taken in without an overflow, as long as there is room for it. -/
theorem toNat_unitOfDigits_concat {char : Char} {unit value : Nat} (ht : (unitOfDigits t).toNat = unit)
    (room : unit < 0x1000) (h : IsHexDigit char value) :
    (unitOfDigits (t ++ [char])).toNat = unit * 16 + value := by
  have small := h.value_lt
  obtain ⟨-, rfl⟩ := isHexDigit_iff.1 h
  have taken : unitOfDigits (t ++ [char]) = unitOfDigits t * 16 + hexValue char := by
    rw [unitOfDigits, List.foldl_append]
    rfl
  have product : (unitOfDigits t * 16).toNat = unit * 16 := by
    rw [UInt32.toNat_mul, ht]
    exact Nat.mod_eq_of_lt (Nat.lt_trans (Nat.mul_lt_mul_of_pos_right room (by decide)) (by decide))
  rw [taken, UInt32.toNat_add, product]
  exact Nat.mod_eq_of_lt (by omega)

/-- Three digits are added up without an overflow, and leave room for a fourth one. -/
theorem toNat_unitOfDigits_three {a b c : Char} {i j k : Nat} (ha : IsHexDigit a i) (hb : IsHexDigit b j)
    (hc : IsHexDigit c k) : (unitOfDigits [a]).toNat = i ∧ (unitOfDigits [a, b]).toNat = i * 16 + j ∧
      (unitOfDigits [a, b, c]).toNat = (i * 16 + j) * 16 + k := by
  have small := ha.value_lt
  have small' := hb.value_lt
  have first : (unitOfDigits [a]).toNat = 0 * 16 + i :=
    toNat_unitOfDigits_concat (t := []) UInt32.toNat_zero (by decide) ha
  rw [Nat.zero_mul, Nat.zero_add] at first
  have second : (unitOfDigits [a, b]).toNat = i * 16 + j := toNat_unitOfDigits_concat first (by omega) hb
  exact ⟨first, second, toNat_unitOfDigits_concat second (by omega) hc⟩

/-- Four digits are added up without an overflow. -/
theorem IsHexUnit.toNat_unitOfDigits {unit : Nat} (h : IsHexUnit t unit) : (unitOfDigits t).toNat = unit := by
  obtain ⟨ha, hb, hc, hd⟩ := h
  have small := ha.value_lt
  have small' := hb.value_lt
  have small'' := hc.value_lt
  obtain ⟨-, -, third⟩ := toNat_unitOfDigits_three ha hb hc
  exact toNat_unitOfDigits_concat third (by omega) hd

/-- What four digits write is a word. -/
theorem IsHexUnit.exists_unit {unit : Nat} (h : IsHexUnit t unit) : ∃ word : UInt32, word.toNat = unit :=
  ⟨unitOfDigits t, h.toNat_unitOfDigits⟩

/-- Wherever one of four digits is taken in there is room for it. -/
theorem IsHexUnit.digit_fits {unit : Nat} {front back : List Char} {char : Char} (h : IsHexUnit t unit)
    (split : t = front ++ char :: back) :
    (unitOfDigits front).toNat * 16 + (hexValue char).toNat < UInt32.size := by
  have step {value : Nat} (digit : IsHexDigit char value) (room : (unitOfDigits front).toNat < 0x1000) :
      (unitOfDigits front).toNat * 16 + (hexValue char).toNat < UInt32.size := by
    have small := digit.value_lt
    obtain ⟨-, rfl⟩ := isHexDigit_iff.1 digit
    rw [UInt32.size]
    omega
  obtain ⟨ha, hb, hc, hd⟩ := h
  have small := ha.value_lt
  have small' := hb.value_lt
  have small'' := hc.value_lt
  obtain ⟨first, second, third⟩ := toNat_unitOfDigits_three ha hb hc
  rcases front with _ | ⟨_, _ | ⟨_, _ | ⟨_, _ | ⟨_, front⟩⟩⟩⟩
  · cases split
    exact step ha (by decide)
  · cases split
    exact step hb (by rw [first]; omega)
  · cases split
    exact step hc (by rw [second]; omega)
  · cases split
    exact step hd (by rw [third]; omega)
  · have long := congrArg List.length split
    simp at long

/-- Four hexadecimal digits, and no other texts, write the unit that they add up to. -/
theorem isHexUnit_iff {unit : Nat} : IsHexUnit t unit ↔
    t.length = 4 ∧ (∀ char ∈ t, char ∈ "0123456789abcdefABCDEF".toList) ∧ unit = (unitOfDigits t).toNat := by
  constructor
  · intro h
    refine ⟨?_, ?_, h.toNat_unitOfDigits.symm⟩
    · cases h
      rfl
    · obtain ⟨ha, hb, hc, hd⟩ := h
      simp only [List.forall_mem_cons]
      exact ⟨(isHexDigit_iff.1 ha).1, (isHexDigit_iff.1 hb).1, (isHexDigit_iff.1 hc).1, (isHexDigit_iff.1 hd).1,
        by simp⟩
  · rintro ⟨hlength, hall, rfl⟩
    obtain ⟨a, b, c, d, rfl⟩ : ∃ a b c d, t = [a, b, c, d] :=
      ⟨_, _, _, _, List.eq_getElem_of_length_eq_four t hlength⟩
    simp only [List.forall_mem_cons] at hall
    obtain ⟨ha, hb, hc, hd, -⟩ := hall
    have unit := IsHexUnit.mk (isHexDigit_iff.2 ⟨ha, rfl⟩) (isHexDigit_iff.2 ⟨hb, rfl⟩)
      (isHexDigit_iff.2 ⟨hc, rfl⟩) (isHexDigit_iff.2 ⟨hd, rfl⟩)
    rwa [← unit.toNat_unitOfDigits] at unit

/-- A unit is accepted by its digits. -/
theorem hexUnit_accepts {unit : UInt32} (h : IsHexUnit t unit.toNat) (hrest : c.rest = t ++ rest) :
    (hexUnit : Parser Rule UInt32).Accepts grammar c unit t := by
  obtain ⟨hlength, hall, hunit⟩ := isHexUnit_iff.1 h
  obtain rfl : unit = unitOfDigits t := UInt32.toNat_inj.1 hunit
  have digit (d : TextCursor) (s others : List Char) (char : Char) (hd : d.rest = s ++ others)
      (hs : s = [char] ∧ char ∈ "0123456789abcdefABCDEF".toList) :
      (oneOf "0123456789abcdefABCDEF" : Parser Rule Char).Accepts grammar d char s := by
    obtain ⟨rfl, hchar⟩ := hs
    exact oneOf_accepts hd hchar
  have digits : (repeatAfter (oneOf "0123456789abcdefABCDEF") [] t.length).Accepts grammar c t t :=
    repeatAfter_accepts (repeats_chars hall) digit hrest
  rw [hlength] at digits
  exact digits.map

/-- Where a unit is expected, four hexadecimal digits are read or the parser rejects. -/
theorem decides_hexUnit :
    (hexUnit : Parser Rule UInt32).Decides grammar (fun s unit => IsHexUnit s unit.toNat) c := by
  refine ((Decides.repeatAfter (fun _ => decides_oneOf _) 4 [] c).mono ?_).map
  rintro s value ⟨more, hlength, hmore, rfl⟩
  obtain ⟨rfl, hall⟩ := hmore.of_chars
  exact isHexUnit_iff.2 ⟨hlength, hall, rfl⟩

/-! ## Escapes -/

/-- The code point of a character stands for it. -/
theorem charOfCode_accepts (char : Char) : (charOfCode char.val : Parser Rule Char).Accepts grammar c char [] := by
  rw [charOfCode, dif_pos char.valid]
  exact unit_accepts char c

/-- A code point is that of a character, or the parser rejects. -/
theorem decides_charOfCode (code : UInt32) :
    (charOfCode code : Parser Rule Char).Decides grammar (fun t char => t = [] ∧ char.val = code) c := by
  rw [charOfCode]
  split
  · exact decides_unit ⟨rfl, rfl⟩
  · exact decides_fail _

/-- The test for a high surrogate is that for its number. -/
theorem isHigh_iff {unit : UInt32} :
    (0xd800 ≤ unit ∧ unit < 0xdc00) ↔ 0xd800 ≤ unit.toNat ∧ unit.toNat < 0xdc00 := Iff.rfl

/-- The test for a low surrogate is that for its number. -/
theorem isLow_iff {unit : UInt32} :
    (0xdc00 ≤ unit ∧ unit < 0xe000) ↔ 0xdc00 ≤ unit.toNat ∧ unit.toNat < 0xe000 := Iff.rfl

/-- A pair of surrogates is combined without an overflow, and without going below zero. -/
theorem toNat_combineSurrogates {high low : UInt32} (hhigh : 0xd800 ≤ high ∧ high < 0xdc00)
    (hlow : 0xdc00 ≤ low ∧ low < 0xe000) :
    (combineSurrogates high low).toNat = 0x10000 + (high.toNat - 0xd800) * 0x400 + (low.toNat - 0xdc00) := by
  have upper : (high - 0xd800).toNat = high.toNat - 0xd800 := UInt32.toNat_sub_of_le _ _ hhigh.1
  have lower : (low - 0xdc00).toNat = low.toNat - 0xdc00 := UInt32.toNat_sub_of_le _ _ hlow.1
  obtain ⟨-, highAbove⟩ := isHigh_iff.1 hhigh
  obtain ⟨-, lowAbove⟩ := isLow_iff.1 hlow
  have shifted : ((high - 0xd800) <<< (10 : UInt32)).toNat = (high.toNat - 0xd800) * 0x400 := by
    rw [UInt32.toNat_shiftLeft, upper]
    change (high.toNat - 0xd800) <<< 10 % 4294967296 = _
    rw [Nat.shiftLeft_eq]
    exact Nat.mod_eq_of_lt (by omega)
  have sum : (0x10000 + ((high - 0xd800) <<< (10 : UInt32))).toNat =
      0x10000 + (high.toNat - 0xd800) * 0x400 := by
    rw [UInt32.toNat_add, shifted]
    change (0x10000 + (high.toNat - 0xd800) * 0x400) % 4294967296 = _
    exact Nat.mod_eq_of_lt (by omega)
  rw [combineSurrogates, UInt32.toNat_add, sum, lower]
  exact Nat.mod_eq_of_lt (by omega)

/-- The partial results of combining a pair of surrogates do not go below zero, and the last and largest of them
is within the code points. -/
theorem combineSurrogates_fits {high low : UInt32} (hhigh : 0xd800 ≤ high ∧ high < 0xdc00)
    (hlow : 0xdc00 ≤ low ∧ low < 0xe000) : 0xd800 ≤ high.toNat ∧ 0xdc00 ≤ low.toNat ∧
      0x10000 + (high.toNat - 0xd800) * 0x400 + (low.toNat - 0xdc00) < 0x110000 := by
  obtain ⟨highBelow, highAbove⟩ := isHigh_iff.1 hhigh
  obtain ⟨lowBelow, lowAbove⟩ := isLow_iff.1 hlow
  exact ⟨highBelow, lowBelow, by omega⟩

/-- A unit behind a text is accepted. -/
theorem writtenUnit_accepts {text : String} {unit : UInt32} (h : IsHexUnit t unit.toNat)
    (hrest : c.rest = text.toList ++ (t ++ rest)) :
    (chain (literal text) hexUnit : Parser Rule UInt32).Accepts grammar c unit (text.toList ++ t) :=
  (literal_accepts hrest).chain (hexUnit_accepts h (TextCursor.rest_past hrest))

/-- Where a unit is expected behind a text, this is what is read, or the parser rejects. -/
theorem decides_writtenUnit (text : String) : (chain (literal text) hexUnit : Parser Rule UInt32).Decides grammar
    (fun s unit => ∃ t, s = text.toList ++ t ∧ IsHexUnit t unit.toNat) c := by
  refine (decides_literal text).chain fun s rest _ _ hs => decides_hexUnit.mono ?_
  obtain ⟨rfl, -⟩ := hs
  exact fun t unit ht => ⟨t, rfl, ht⟩

/-- One unit of UTF-16 that is no surrogate. -/
theorem unicodeEscape_accepts {char : Char} (h : IsHexUnit t char.toNat) (hrest : c.rest = 'u' :: t ++ rest) :
    (unicodeEscape : Parser Rule Char).Accepts grammar c char ('u' :: t) := by
  have unit : (chain (literal "u") hexUnit : Parser Rule UInt32).Accepts grammar c char.val ('u' :: t) :=
    writtenUnit_accepts h hrest
  have hscalar : ¬(0xd800 ≤ char.val ∧ char.val < 0xdc00) := by
    have hvalid : char.val.toNat.isValidChar := char.valid
    rw [isHigh_iff]
    unfold Nat.isValidChar at hvalid
    omega
  have accepted : (unicodeEscape : Parser Rule Char).Accepts grammar c char ('u' :: t ++ []) := by
    refine unit.bind ?_
    rw [if_neg hscalar]
    exact charOfCode_accepts char
  rwa [List.append_nil] at accepted

/-- A pair of surrogates. -/
theorem unicodeEscape_accepts_pair {t' : List Char} {high low : UInt32} {char : Char}
    (h : IsHexUnit t high.toNat) (h' : IsHexUnit t' low.toNat) (hhigh : 0xd800 ≤ high ∧ high < 0xdc00)
    (hlow : 0xdc00 ≤ low ∧ low < 0xe000)
    (hchar : char.toNat = 0x10000 + (high.toNat - 0xd800) * 0x400 + (low.toNat - 0xdc00))
    (hrest : c.rest = 'u' :: (t ++ '\\' :: 'u' :: t') ++ rest) :
    (unicodeEscape : Parser Rule Char).Accepts grammar c char ('u' :: (t ++ '\\' :: 'u' :: t')) := by
  have hfirst : c.rest = ['u'] ++ (t ++ ('\\' :: 'u' :: t' ++ rest)) := by simpa using hrest
  have first : (chain (literal "u") hexUnit : Parser Rule UInt32).Accepts grammar c high (['u'] ++ t) :=
    writtenUnit_accepts h hfirst
  have hsecond : (c.past (['u'] ++ t)).rest = ['\\', 'u'] ++ (t' ++ rest) := by
    rw [← List.append_assoc] at hfirst
    exact TextCursor.rest_past hfirst
  have second : (chain (literal "\\u") hexUnit : Parser Rule UInt32).Accepts grammar (c.past (['u'] ++ t)) low
      (['\\', 'u'] ++ t') := writtenUnit_accepts h' hsecond
  have code : combineSurrogates high low = char.val :=
    UInt32.toNat_inj.1 ((toNat_combineSurrogates hhigh hlow).trans hchar.symm)
  have accepted : (unicodeEscape : Parser Rule Char).Accepts grammar c char
      (['u'] ++ t ++ (['\\', 'u'] ++ t' ++ [])) := by
    refine first.bind ?_
    rw [if_pos hhigh]
    refine second.bind ?_
    rw [if_pos hlow, code]
    exact charOfCode_accepts char
  simpa using accepted

/-- Behind a backslash, an escape by units is that of a character, or the parser rejects. -/
theorem decides_unicodeEscape : (unicodeEscape : Parser Rule Char).Decides grammar
    (fun t char => IsStringChar ('\\' :: t) char) c := by
  refine (decides_writtenUnit "u").bind fun s rest high _ hs => ?_
  obtain ⟨t, rfl, ht⟩ := hs
  split
  · next hhigh =>
    refine (decides_writtenUnit "\\u").bind fun s' rest' low _ hs' => ?_
    obtain ⟨t', rfl, ht'⟩ := hs'
    split
    · next hlow =>
      refine (decides_charOfCode _).mono ?_
      rintro u char ⟨rfl, hchar⟩
      have code : char.toNat = 0x10000 + (high.toNat - 0xd800) * 0x400 + (low.toNat - 0xdc00) :=
        (congrArg UInt32.toNat hchar).trans (toNat_combineSurrogates hhigh hlow)
      have written := IsStringChar.surrogates ht ht' (isHigh_iff.1 hhigh) (isLow_iff.1 hlow) code
      simpa using written
    · exact decides_fail _
  · refine (decides_charOfCode _).mono ?_
    rintro u char ⟨rfl, rfl⟩
    have written := IsStringChar.unicode ht
    simpa using written

/-- The short escapes are those of the table. -/
theorem isEscape_iff {letter char : Char} : IsEscape letter char ↔ (letter, char) ∈ simpleEscapes := by
  constructor
  · rintro (_ | _) <;> simp [simpleEscapes]
  · intro h
    simp only [simpleEscapes, List.mem_cons, Prod.mk.injEq, List.not_mem_nil, or_false] at h
    rcases h with ⟨rfl, rfl⟩ | ⟨rfl, rfl⟩ | ⟨rfl, rfl⟩ | ⟨rfl, rfl⟩ | ⟨rfl, rfl⟩ | ⟨rfl, rfl⟩ |
      ⟨rfl, rfl⟩ | ⟨rfl, rfl⟩ <;> constructor

/-- No two short escapes have the same letter. -/
theorem simpleEscapes_pairwise : simpleEscapes.Pairwise fun earlier later => earlier.1 ≠ later.1 := by
  decide

/-- The parser of a short escape, after the backslash. -/
def shortEscape (escape : Char × Char) : Parser Rule Char :=
  chain (literal (String.singleton escape.1)) (unit escape.2)

/-- An escape is one by units or one of the short ones, behind a backslash. -/
theorem escaped_eq : (escaped : Parser Rule Char) =
    chain (literal "\\") (choices (unicodeEscape :: simpleEscapes.map shortEscape)) := rfl

/-- A short escape is accepted by its letter. -/
theorem shortEscape_accepts {escape : Char × Char} (hrest : c.rest = escape.1 :: rest) :
    (shortEscape escape).Accepts grammar c escape.2 [escape.1] := by
  have letter : c.rest = (String.singleton escape.1).toList ++ rest := by
    rwa [String.toList_singleton]
  have accepted : (shortEscape escape).Accepts grammar c escape.2
      ((String.singleton escape.1).toList ++ []) :=
    (literal_accepts letter).chain (unit_accepts escape.2 _)
  rwa [List.append_nil, String.toList_singleton] at accepted

/-- Where its letter does not come next, a short escape is rejected. -/
theorem shortEscape_rejects {escape : Char × Char} (h : NotNext (· = escape.1) c.rest) :
    (shortEscape escape).Rejects grammar c [] :=
  (literal_rejects_of_notNext (String.toList_singleton escape.1) h).bind

/-- Every escape of the syntax is accepted. A short one is found behind those before it in the table, as
no two have the same letter. -/
theorem escaped_accepts {char : Char} (h : IsStringChar ('\\' :: t) char) (hrest : c.rest = '\\' :: t ++ rest) :
    (escaped : Parser Rule Char).Accepts grammar c char ('\\' :: t) := by
  have backslash : (literal "\\" : Parser Rule String).Accepts grammar c "\\" ['\\'] :=
    literal_accepts hrest
  have hpast : (c.past ['\\']).rest = t ++ rest := TextCursor.rest_past hrest
  rw [escaped_eq]
  refine backslash.chain ?_
  cases h with
  | plain _ _ hbackslash => exact absurd rfl hbackslash
  | @escape letter char h =>
    have hunicode : (unicodeEscape : Parser Rule Char).Rejects grammar (c.past ['\\']) [] := by
      have other : NotNext (· = 'u') (c.past ['\\']).rest := by
        rw [hpast, List.cons_append, notNext_cons]
        rintro rfl
        cases h
      exact (literal_rejects_of_notNext rfl other).bind.bind
    have distinct := simpleEscapes_pairwise
    obtain ⟨before, after, hsplit⟩ := List.append_of_mem (isEscape_iff.1 h)
    rw [hsplit] at distinct ⊢
    have earlier : ∀ parser ∈ unicodeEscape :: before.map shortEscape,
        parser.Rejects grammar (c.past ['\\']) [] := by
      simp only [List.forall_mem_cons, List.forall_mem_map]
      refine ⟨hunicode, fun escape hescape => shortEscape_rejects ?_⟩
      rw [hpast, List.cons_append, notNext_cons]
      have hne := (List.pairwise_append.1 distinct).2.2 escape hescape _ List.mem_cons_self
      exact fun hsame => hne hsame.symm
    have accepted : (choices ((unicodeEscape :: before.map shortEscape) ++
        shortEscape (letter, char) :: after.map shortEscape)).Accepts grammar (c.past ['\\']) char
          [letter] := Accepts.choices earlier (shortEscape_accepts hpast)
    simpa using accepted
  | unicode h => exact (unicodeEscape_accepts h hpast).foldl_choice
  | @surrogates digits others high low char h h' hhigh hlow hchar =>
    obtain ⟨high, rfl⟩ := h.exists_unit
    obtain ⟨low, rfl⟩ := h'.exists_unit
    exact (unicodeEscape_accepts_pair h h' (isHigh_iff.2 hhigh) (isLow_iff.2 hlow) hchar hpast).foldl_choice

/-- Escapes of the syntax are read, or the parser rejects. -/
theorem decides_escaped : (escaped : Parser Rule Char).Decides grammar IsStringChar c := by
  rw [escaped_eq]
  refine (decides_literal "\\").chain fun t rest _ _ ht => Decides.choices ?_
  obtain ⟨rfl, -⟩ := ht
  simp only [List.forall_mem_cons, List.forall_mem_map]
  refine ⟨decides_unicodeEscape, fun escape hescape => ?_⟩
  refine (decides_literal _).chain fun u rest' _ _ hu => decides_unit ?_
  obtain ⟨rfl, -⟩ := hu
  rw [String.toList_singleton, List.append_nil]
  exact .escape (isEscape_iff.2 hescape)

/-! ## Characters and strings -/

/-- A character that stands for itself is accepted. -/
theorem unescaped_accepts {char : Char} (hcontrol : ' ' ≤ char) (hquote : char ≠ '"')
    (hbackslash : char ≠ '\\') (hrest : c.rest = char :: rest) :
    (unescaped : Parser Rule Char).Accepts grammar c char [char] := by
  have found : c.peek = some char := by rw [TextCursor.peek, hrest]; rfl
  refine ⟨(c.past [char]).position, yields_scan_iff.2 ?_⟩
  simp [Scan.run, Scan.advance, Scan.succeed, found, Char.not_lt.2 hcontrol, hquote, hbackslash,
    TextCursor.read_of_rest hrest]

/-- A character that stands for itself is read, or the parser rejects. -/
theorem decides_unescaped : (unescaped : Parser Rule Char).Decides grammar IsStringChar c := by
  cases hrest : c.rest with
  | nil =>
    refine .inr ⟨[], .single ⟨"Expected string character but found end of string", c.position⟩,
      yields_scan_iff.2 ?_⟩
    simp [Scan.run, TextCursor.peek, hrest, Result.fail]
  | cons char rest =>
    have found : c.peek = some char := by rw [TextCursor.peek, hrest]; rfl
    by_cases hcontrol : char < ' '
    · refine .inr ⟨[], .single
        ⟨s!"Unescaped control character {Text.quoteChar char} in string", c.position⟩,
        yields_scan_iff.2 ?_⟩
      simp [Scan.run, found, hcontrol, Result.fail]
    · by_cases hspecial : char = '"' ∨ char = '\\'
      · refine .inr ⟨[], .single ⟨s!"Unexpected `{char}` in string", c.position⟩, yields_scan_iff.2 ?_⟩
        simp [Scan.run, found, hcontrol, hspecial, Result.fail]
      · obtain ⟨hquote, hbackslash⟩ := not_or.1 hspecial
        have hplain := Char.not_lt.1 hcontrol
        exact .inl ⟨[char], rest, char, hrest, .plain hplain hquote hbackslash,
          unescaped_accepts hplain hquote hbackslash hrest⟩

/-- No character of a string is written by nothing. -/
theorem IsStringChar.ne_nil {char : Char} (h : IsStringChar t char) : t ≠ [] := by
  cases h <;> simp

/-- The item of the repetition in a string: the closing quote, or else one more character. -/
def stringItem : Parser Rule (Option Char) :=
  choice (map (fun _ => none) (literal "\"")) (map some (choice escaped unescaped))

/-- A string is the repetition of its items behind the opening quote. -/
theorem string_eq : (string : Parser Rule String) =
    chain (literal "\"") (map String.ofList (collect stringItem [])) := rfl

/-- A character of a string is accepted, as no character is written with a quote in front. -/
theorem stringItem_accepts {char : Char} (h : IsStringChar t char) (hrest : c.rest = t ++ rest) :
    stringItem.Accepts grammar c (some char) t := by
  have quoteless : NotNext (· = '"') c.rest := by
    rw [hrest]
    cases h <;> simp_all
  have closed : (literal "\"" : Parser Rule String).Rejects grammar c [] :=
    literal_rejects_of_notNext rfl quoteless
  refine closed.map.choice_accepts (Accepts.map ?_)
  cases h with
  | plain hcontrol hquote hbackslash =>
    have other : NotNext (· = '\\') c.rest := by simpa [hrest] using hbackslash
    have rejected : (escaped : Parser Rule Char).Rejects grammar c [] :=
      (literal_rejects_of_notNext rfl other).bind
    exact rejected.choice_accepts (unescaped_accepts hcontrol hquote hbackslash hrest)
  | escape h => exact (escaped_accepts (.escape h) hrest).choice
  | unicode h => exact (escaped_accepts (.unicode h) hrest).choice
  | surrogates h h' hhigh hlow hchar =>
    exact (escaped_accepts (.surrogates h h' hhigh hlow hchar) hrest).choice

/-- A string is accepted as a whole, with its text. -/
theorem string_accepts {text : String} (h : IsString t text) (hrest : c.rest = t ++ rest) :
    (string : Parser Rule String).Accepts grammar c text t := by
  obtain ⟨hbody⟩ := h
  rename_i body
  have opening : (literal "\"" : Parser Rule String).Accepts grammar c "\"" ['"'] :=
    literal_accepts hrest
  have hpast : (c.past ['"']).rest = body ++ ('"' :: rest) := by
    have moved : (c.past ['"']).rest = body ++ ['"'] ++ rest := TextCursor.rest_past hrest
    simpa using moved
  have closing (d : TextCursor) (hd : d.rest = '"' :: rest) : stringItem.Accepts grammar d none ['"'] :=
    Accepts.choice (literal_accepts hd).map
  have chars : (collect stringItem []).Accepts grammar (c.past ['"']) text.toList (body ++ ['"']) :=
    collect_accepts hbody (fun d s others char hd hs => ⟨hs.ne_nil, stringItem_accepts hs hd⟩) hpast closing
  have accepted := opening.chain (chars.map (f := String.ofList))
  rw [String.ofList_toList] at accepted
  exact accepted

/-- Nothing but strings is accepted, with their texts. -/
theorem decides_string : (string : Parser Rule String).Decides grammar IsString c := by
  rw [string_eq]
  refine (decides_literal "\"").chain fun t rest _ _ ht => ?_
  obtain ⟨rfl, -⟩ := ht
  have item (d : TextCursor) : stringItem.Decides grammar
      (fun t value => (value = none ∧ t = ['"']) ∨ ∃ char, value = some char ∧ IsStringChar t char) d :=
    Decides.choice ((decides_literal "\"").mono fun t _ ht => .inl ⟨rfl, ht.1⟩).map
      ((decides_escaped.choice decides_unescaped).mono fun t char ht => .inr ⟨char, rfl, ht⟩).map
  refine ((Decides.collect (fun d _ => item d) ?_ []).mono ?_).map
  · rintro char (⟨⟨⟩, -⟩ | ⟨other, -, h⟩)
    exact h.ne_nil rfl
  · rintro s values ⟨body, u, more, rfl, hmore, ⟨-, rfl⟩ | ⟨other, ⟨⟩, -⟩, rfl⟩
    refine .mk ?_
    rw [String.toList_ofList]
    refine hmore.mono fun t char ht => ?_
    rcases ht with ⟨⟨⟩, -⟩ | ⟨other, hother, ht⟩
    obtain rfl := Option.some.inj hother
    exact ht

/-- Where no quote comes next there is no string, and nothing is consumed. -/
theorem string_rejects (h : NotNext (· = '"') c.rest) :
    (string : Parser Rule String).Rejects grammar c [] :=
  (literal_rejects_of_notNext rfl h).bind

end Parsing.Json
