import Parsing.Proofs.Json.Document
import Parsing.Proofs.Text.Utf16

/-!
# Escapes are UTF-16

A string may be written as units of UTF-16, each as an escape with four hexadecimal digits. Such a text is
read exactly if its units are well-formed UTF-16, and then as the string that they encode: how runs of
surrogates and other units are cut into characters does not depend on what the parser has committed itself
to. The code points are computed within words of 32 bits.
-/

namespace Parsing.Json

open Parsing.Parser Text

variable {c : TextCursor} {t body rest : List Char} {v : Value} {units : List UInt16}

/-! ## Written units -/

/-- A text that writes units of UTF-16 as escapes, with hexadecimal digits in either case. -/
def WritesUnits : List Char → List UInt16 → Prop :=
  Repeats fun t unit => ∃ digits, t = '\\' :: 'u' :: digits ∧ IsHexUnit digits unit.toNat

/-- One more unit is written. -/
theorem WritesUnits.cons {digits : List Char} {unit : UInt16} (h : IsHexUnit digits unit.toNat)
    (rest : WritesUnits t units) : WritesUnits ('\\' :: 'u' :: (digits ++ t)) (unit :: units) :=
  Repeats.cons (t := '\\' :: 'u' :: digits) ⟨digits, rfl, h⟩ rest

/-- A unit is written with four digits. -/
theorem IsHexUnit.length_eq {n : Nat} (h : IsHexUnit t n) : t.length = 4 := (isHexUnit_iff.1 h).1

/-- Digits write one unit. -/
theorem IsHexUnit.unique {n m : Nat} (h : IsHexUnit t n) (h' : IsHexUnit t m) : n = m :=
  (isHexUnit_iff.1 h).2.2.trans (isHexUnit_iff.1 h').2.2.symm

/-- Digits at the start of a text write one unit, and one rest of the text is behind them. -/
theorem IsHexUnit.append_unique {t' u u' : List Char} {n m : Nat} (h : IsHexUnit t n) (h' : IsHexUnit t' m)
    (same : t ++ u = t' ++ u') : n = m ∧ u = u' := by
  obtain ⟨rfl, rest⟩ := List.append_inj same (h.length_eq.trans h'.length_eq.symm)
  exact ⟨h.unique h', rest⟩

/-- A text that is not empty starts with the escape of the first unit. -/
theorem WritesUnits.exists_cons {char : Char} (h : WritesUnits (char :: t) units) :
    ∃ digits rest unit others, char :: t = '\\' :: 'u' :: (digits ++ rest) ∧ IsHexUnit digits unit.toNat ∧
      units = unit :: others ∧ WritesUnits rest others := by
  generalize hall : char :: t = all at h
  cases h with
  | nil => cases hall
  | cons first rest =>
    obtain ⟨digits, rfl, hdigits⟩ := first
    exact ⟨digits, _, _, _, rfl, hdigits, rfl, rest⟩

/-- The empty text writes no units. -/
theorem WritesUnits.eq_nil (h : WritesUnits [] units) : units = [] := by
  generalize hall : ([] : List Char) = all at h
  cases h with
  | nil => rfl
  | cons first rest =>
    obtain ⟨digits, rfl, -⟩ := first
    cases hall

/-- No quote is written. -/
theorem WritesUnits.quoteless (h : WritesUnits body units) : '"' ∉ body := by
  induction h with
  | nil => exact List.not_mem_nil
  | cons first rest ih =>
    obtain ⟨digits, rfl, hdigits⟩ := first
    have hexadecimal : '"' ∉ digits := fun quoted =>
      absurd ((isHexUnit_iff.1 hdigits).2.1 _ quoted) (by decide)
    simpa [hexadecimal] using ih

/-! ## Characters of written units -/

/-- Units that encode characters are written as these characters. -/
theorem repeats_of_encode {chars : List Char} (h : WritesUnits body (Utf16.encode chars)) :
    Repeats IsStringChar body chars := by
  induction chars generalizing body with
  | nil =>
    cases h
    exact .nil
  | cons char chars ih =>
    rw [Utf16.encode_cons] at h
    rcases Utf16.encodeChar_cases char with ⟨unit, single⟩ | ⟨high, low, pair⟩
    · rw [single] at h
      cases h with
      | cons first rest =>
        obtain ⟨digits, rfl, hdigits⟩ := first
        rw [← Utf16.encodeChar_eq_single_iff.1 single] at hdigits
        exact .cons (.unicode hdigits) (ih rest)
    · obtain ⟨hhigh, hlow, hchar⟩ := Utf16.encodeChar_eq_pair_iff.1 pair
      rw [pair] at h
      cases h with
      | cons first rest =>
        cases rest with
        | cons second rest =>
          obtain ⟨digits, rfl, hdigits⟩ := first
          obtain ⟨others, rfl, hothers⟩ := second
          have both : Repeats IsStringChar ('\\' :: 'u' :: (digits ++ '\\' :: 'u' :: others) ++ _) (char :: chars) :=
            .cons (.surrogates hdigits hothers hhigh hlow hchar) (ih rest)
          simpa using both

/-- Where escapes of units are read as characters, the units encode these characters. -/
theorem encode_of_repeats {chars : List Char} (h : Repeats IsStringChar body chars)
    (written : WritesUnits body units) : Utf16.encode chars = units := by
  induction h generalizing units with
  | nil => exact written.eq_nil.symm
  | @cons t u char chars first rest ih =>
    obtain ⟨lead, more, rfl⟩ := List.exists_cons_of_ne_nil first.ne_nil
    obtain ⟨digits, behind, unit, others, split, hdigits, rfl, hothers⟩ := written.exists_cons
    rw [Utf16.encode_cons]
    cases first with
    | plain _ _ hbackslash =>
      cases split
      exact absurd rfl hbackslash
    | escape letter =>
      cases split
      cases letter
    | unicode hunit =>
      obtain ⟨same, rfl⟩ := hunit.append_unique hdigits (by simpa using split)
      rw [Utf16.encodeChar_eq_single_iff.2 same, ih hothers]
      rfl
    | @surrogates first second high low _ hfirst hsecond hhigh hlow hchar =>
      obtain ⟨rfl, behindFirst⟩ := hfirst.append_unique (u := '\\' :: 'u' :: (second ++ u)) hdigits
        (by simpa using split)
      rw [← behindFirst] at hothers
      obtain ⟨digits', behind', low', others', split', hdigits', rfl, hothers'⟩ := hothers.exists_cons
      obtain ⟨rfl, rfl⟩ := hsecond.append_unique hdigits' (by simpa using split')
      rw [Utf16.encodeChar_eq_pair_iff.2 ⟨hhigh, hlow, hchar⟩, ih hothers']
      rfl

/-! ## Documents that are one string -/

/-- Between quotes, units that encode a text are a document, with the text as its value. -/
theorem isDocument_of_encode {text : String} (written : WritesUnits body units)
    (encoded : Utf16.encode text.toList = units) : IsDocument ('"' :: (body ++ ['"'])) (.string text) := by
  subst encoded
  have noSpace : IsSpace [] := fun _ h => absurd h List.not_mem_nil
  have document := IsDocument.mk noSpace (.string (.mk (repeats_of_encode written))) noSpace
  rwa [List.nil_append, List.append_nil] at document

/-- A value that starts with a quote is a string. -/
theorem IsValue.exists_isString (h : IsValue t v) (quoted : t.head? = some '"') :
    ∃ text, v = .string text ∧ IsString t text := by
  cases h with
  | string h => exact ⟨_, rfl, h⟩
  | number h =>
    obtain ⟨char, more, rfl, hchar⟩ := h.exists_cons
    cases quoted
    rcases hchar with hminus | hdigit
    · cases hminus
    · cases hdigit
  | _ => cases quoted

/-- A text up to the first quote is cut there only. -/
theorem eq_of_append_quote {front behind : List Char} (quoteless : '"' ∉ body)
    (same : body ++ ['"'] = front ++ '"' :: behind) : front = body ∧ behind = [] := by
  rcases List.append_eq_append_iff.1 same with ⟨more, rfl, closed⟩ | ⟨more, rfl, closed⟩
  · cases more with
    | nil =>
      cases closed
      exact ⟨List.append_nil _, rfl⟩
    | cons char more =>
      have short := congrArg List.length closed
      simp at short
  · cases more with
    | nil =>
      cases closed
      exact ⟨(List.append_nil _).symm, rfl⟩
    | cons char more =>
      cases closed
      simp at quoteless

/-- A document at the start of a text between quotes is all of it, as a string. -/
theorem IsDocument.quoted {token : List Char} (h : IsDocument token v) (quoteless : '"' ∉ body)
    (split : '"' :: (body ++ ['"']) = token ++ rest) :
    rest = [] ∧ ∃ text, v = .string text ∧ Repeats IsStringChar body text.toList := by
  obtain ⟨hw, hvalue, hw'⟩ := h
  rename_i w t w'
  cases w with
  | cons char w =>
    obtain ⟨rfl, -⟩ := List.cons.inj split
    exact absurd (hw _ List.mem_cons_self) (by decide)
  | nil =>
    obtain ⟨lead, more, rfl, -⟩ := hvalue.exists_cons
    obtain ⟨rfl, -⟩ := List.cons.inj split
    obtain ⟨text, rfl, hstring⟩ := hvalue.exists_isString rfl
    generalize hall : '"' :: more = all at hstring
    obtain ⟨chars⟩ := hstring
    obtain rfl := (List.cons.inj hall).2
    obtain ⟨rfl, behind⟩ := eq_of_append_quote quoteless (by simpa using split)
    exact ⟨(List.append_eq_nil_iff.1 behind).2, text, rfl, chars⟩

/-- A document is accepted as a whole, whatever the options are. -/
theorem whole_document_accepts (options : Options) (h : IsDocument c.rest v) :
    (document options).Accepts grammar c v c.rest := by
  rcases options with ⟨_ | _⟩
  · exact document_accepts h
  · exact surrounded_accepts h

/-- What is accepted at the start of a text is a document, whatever the options are. -/
theorem decides_document (options : Options) (c : TextCursor) : (document options).Decides grammar IsDocument c := by
  rcases options with ⟨_ | _⟩
  · rcases document_decides c with ⟨v, hdocument, accepted⟩ | rejected
    · exact .inl ⟨c.rest, [], v, (List.append_nil _).symm, hdocument, accepted⟩
    · exact .inr rejected
  · exact decides_surrounded c

/-! ## Reading escapes -/

/-- A text between quotes that writes units of UTF-16 as escapes, with digits in either case, is always read
to an end. It is accepted exactly if each high surrogate is immediately followed by a low one and each low one
comes immediately behind a high one. Then it is the string that the units encode, and otherwise a mismatch is
reported.

The parser computes units and code points in words of 32 bits, and nothing that it computes goes beyond them:

* There is always room for the next digit of a unit, and the digits are added up to the unit.
* A pair is only combined if the tests for its halves have succeeded. Then neither of the differences is
  negative, the sum of all parts is within the code points, and the word that is computed is this sum. -/
theorem escapes_are_utf16 (written : WritesUnits body units) (options : Options) :
    (∃ outcome, (∃ needed, ∀ budget, needed ≤ budget →
        parse options budget (TextCursor.ofText (String.ofList ('"' :: (body ++ ['"'])))) = some outcome) ∧
      ((∃ v, outcome = .ok v) ↔ Utf16.WellFormed units) ∧
      (∀ v, outcome = .ok v ↔ ∃ text, v = .string text ∧ Utf16.encode text.toList = units) ∧
      (¬Utf16.WellFormed units → ∃ failures, outcome = .error (.mismatch failures))) ∧
    (∀ digits unit, IsHexUnit digits unit →
      (∀ front char back, digits = front ++ char :: back →
        (unitOfDigits front).toNat * 16 + (hexValue char).toNat < UInt32.size) ∧
      (unitOfDigits digits).toNat = unit) ∧
    ∀ high low : UInt32, (0xd800 ≤ high ∧ high < 0xdc00) → (0xdc00 ≤ low ∧ low < 0xe000) →
      (0xd800 ≤ high.toNat ∧ 0xdc00 ≤ low.toNat ∧
        0x10000 + (high.toNat - 0xd800) * 0x400 + (low.toNat - 0xdc00) < 0x110000) ∧
      (combineSurrogates high low).toNat =
        0x10000 + (high.toNat - 0xd800) * 0x400 + (low.toNat - 0xdc00) := by
  refine ⟨?_, fun digits unit h => ⟨fun front char back split => h.digit_fits split, h.toNat_unitOfDigits⟩,
    fun high low hhigh hlow => ⟨combineSurrogates_fits hhigh hlow, toNat_combineSurrogates hhigh hlow⟩⟩
  have hrest : (TextCursor.ofText (String.ofList ('"' :: (body ++ ['"'])))).rest = '"' :: (body ++ ['"']) :=
    String.toList_ofList
  rcases decides_document options (TextCursor.ofText (String.ofList ('"' :: (body ++ ['"'])))) with
    ⟨token, rest, v, split, hdocument, position, ran⟩ | ⟨consumed, failures, ran⟩
  · obtain ⟨-, text, rfl, chars⟩ := hdocument.quoted written.quoteless (hrest.symm.trans split)
    have encoded := encode_of_repeats chars written
    refine ⟨.ok (.string text), parse_of_yields ran, ?_, fun v => ⟨?_, ?_⟩, fun ill => ?_⟩
    · exact ⟨fun _ => Utf16.wellFormed_iff.2 ⟨_, encoded⟩, fun _ => ⟨_, rfl⟩⟩
    · rintro ⟨⟩
      exact ⟨text, rfl, encoded⟩
    · rintro ⟨text', rfl, encoded'⟩
      rw [(isDocument_of_encode written encoded).unique (isDocument_of_encode written encoded')]
    · exact absurd (Utf16.wellFormed_iff.2 ⟨_, encoded⟩) ill
  · -- units that encode a text would have been accepted
    have undecodable : ∀ text : String, Utf16.encode text.toList ≠ units := fun text encoded => by
      obtain ⟨position, ran'⟩ := whole_document_accepts options
        (hrest.symm ▸ isDocument_of_encode written encoded)
      injection ran.unique ran' with _ same
      cases same
    have ill : ¬Utf16.WellFormed units := fun well => by
      obtain ⟨chars, encoded⟩ := well.exists_encode
      exact undecodable (String.ofList chars) (by rwa [String.toList_ofList])
    refine ⟨_, parse_of_yields ran, ⟨?_, fun well => absurd well ill⟩, fun v => ⟨?_, ?_⟩, fun _ => ⟨_, rfl⟩⟩
    · rintro ⟨v, ⟨⟩⟩
    · rintro ⟨⟩
    · rintro ⟨text, -, encoded⟩
      exact absurd encoded (undecodable text)

/-- A pair and a unit behind it are two characters. A second half behind a pair is none. -/
theorem escapes_are_utf16_pair :
    (∃ needed, ∀ budget, needed ≤ budget →
      parse {} budget (TextCursor.ofText "\"\\ud83E\\uDD80\\u0061\"") = some (.ok (.string "🦀a"))) ∧
    ∃ failures needed, ∀ budget, needed ≤ budget →
      parse {} budget (TextCursor.ofText "\"\\udbff\\uDFFF\\udc00\"") = some (.error (.mismatch failures)) := by
  have writes (digits : String) {n : Nat} (h : digits.toList.length = 4 ∧
      digits.toList.all (decide <| · ∈ "0123456789abcdefABCDEF".toList) = true ∧
      n = (unitOfDigits digits.toList).toNat) : IsHexUnit digits.toList n :=
    isHexUnit_iff.2 ⟨h.1, forall_mem_of_all h.2.1, h.2.2⟩
  constructor
  · have written : WritesUnits "\\ud83E\\uDD80\\u0061".toList [0xd83e, 0xdd80, 0x61] :=
      .cons (writes "d83E" (by decide)) <|
        .cons (writes "DD80" (by decide)) <|
          .cons (writes "0061" (by decide)) .nil
    obtain ⟨⟨outcome, ran, -, value, -⟩, -⟩ := escapes_are_utf16 written {}
    obtain rfl := (value (.string "🦀a")).2 ⟨_, rfl, by decide⟩
    exact ran
  · have written : WritesUnits "\\udbff\\uDFFF\\udc00".toList [0xdbff, 0xdfff, 0xdc00] :=
      .cons (writes "dbff" (by decide)) <|
        .cons (writes "DFFF" (by decide)) <|
          .cons (writes "dc00" (by decide)) .nil
    obtain ⟨⟨outcome, ran, -, -, rejected⟩, -⟩ := escapes_are_utf16 written {}
    obtain ⟨failures, rfl⟩ := rejected fun well => by
      obtain ⟨previous, ⟨⟩, isHigh⟩ := well.preceded 1 0xdc00 rfl (by decide)
      exact absurd isHigh (by decide)
    exact ⟨failures, ran⟩

end Parsing.Json
