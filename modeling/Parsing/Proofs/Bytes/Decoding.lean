import Parsing.Bytes.Utf8
import Parsing.Fault

/-!
# Decoding is the inverse of encoding

The decoder looks at the first byte, takes as many bytes as it announces, and then tests them. This
file says what it finds at the start of given bytes and shows that it finds a character exactly where
the UTF-8 form of that character stands. Every list of bytes therefore is the UTF-8 form of some
characters, followed by bytes at which the decoder meets the end or a fault.
-/

namespace Parsing.Bytes.Utf8

/-- The UTF-8 form of characters. -/
def encode (chars : List Char) : List UInt8 := chars.flatMap String.utf8EncodeChar

/-- The empty text has no bytes. -/
@[simp] theorem encode_nil : encode [] = [] := rfl

/-- The bytes of the first character come first. -/
@[simp] theorem encode_cons (char : Char) (chars : List Char) :
    encode (char :: chars) = String.utf8EncodeChar char ++ encode chars := rfl

/-- Characters are written one after the other. -/
@[simp] theorem encode_append (front back : List Char) :
    encode (front ++ back) = encode front ++ encode back := by
  simp [encode]

/-- The bytes of a text are the UTF-8 form of its characters. -/
theorem toList_toUTF8 (text : String) : text.toUTF8.data.toList = encode text.toList := by
  have h : text.toList.utf8Encode = text.toUTF8 := String.utf8Encode_toList
  rw [← h, List.utf8Encode, List.toList_data_toByteArray]
  rfl

/-- The first bytes that announce none, one, two and three further ones. -/
theorem following?_ofNat {n count : Nat}
    (h : n ≤ 0x7f ∧ count = 0 ∨ (0xc2 ≤ n ∧ n ≤ 0xdf) ∧ count = 1 ∨
      (0xe0 ≤ n ∧ n ≤ 0xef) ∧ count = 2 ∨ (0xf0 ≤ n ∧ n ≤ 0xf4) ∧ count = 3) :
    following? (UInt8.ofNat n) = some count := by
  have hn : (UInt8.ofNat n).toNat = n :=
    UInt8.toNat_ofNat_of_lt (by simp only [UInt8.size]; omega)
  simp only [following?, UInt8.le_iff_toNat_le, hn, UInt8.reduceToNat]
  grind

/-- The first byte of a character announces exactly the other bytes of the character. -/
theorem following?_utf8EncodeChar (char : Char) : ∃ lead more,
    String.utf8EncodeChar char = lead :: more ∧ following? lead = some more.length := by
  have hvalid : char.val.toNat < 0x110000 := by
    have h := char.valid
    simp only [UInt32.isValidChar, Nat.isValidChar] at h
    omega
  fun_cases String.utf8EncodeChar char with
  | case1 v one => exact ⟨_, _, rfl, following?_ofNat (.inl ⟨one, rfl⟩)⟩
  | case2 v _ two => exact ⟨_, _, rfl, following?_ofNat (.inr (.inl ⟨by omega, rfl⟩))⟩
  | case3 v _ _ three => exact ⟨_, _, rfl, following?_ofNat (.inr (.inr (.inl ⟨by omega, rfl⟩)))⟩
  | case4 v _ _ _ => exact ⟨_, _, rfl, following?_ofNat (.inr (.inr (.inr ⟨by omega, rfl⟩)))⟩

/-- The bytes of a character are decoded as that character. -/
theorem decode?_utf8EncodeChar (char : Char) : decode? (String.utf8EncodeChar char) = some char := by
  have h := ByteArray.utf8DecodeChar?_utf8EncodeChar_append (b := ByteArray.empty) (c := char)
  rwa [ByteArray.append_empty] at h

/-- Bytes that are decoded as a character begin with the bytes of that character. -/
theorem exists_of_decode? {bytes : List UInt8} {char : Char} (h : decode? bytes = some char) :
    ∃ more, bytes = String.utf8EncodeChar char ++ more := by
  obtain ⟨more, hmore⟩ := ByteArray.exists_of_utf8DecodeChar?_eq_some h
  refine ⟨more.data.toList, ?_⟩
  have hlist := congrArg (fun b => b.data.toList) hmore
  simpa using hlist

/-- What a decoder finds at the start of `bytes`: a character and the bytes behind it, or else the
fault that it meets, none at a real end. Where the bytes end it meets `behind`. -/
def first? (behind : Option Fault) : List UInt8 → Except (Option Fault) (Char × List UInt8)
  | [] => .error behind
  | lead :: rest =>
    match following? lead with
    | none => .error (some .malformedText)
    | some count =>
      if rest.length < count then .error (some (behind.getD .malformedText))
      else
        match decode? (lead :: rest.take count) with
        | none => .error (some .malformedText)
        | some char => .ok (char, rest.drop count)

/-- A decoder finds each character at the start of its UTF-8 form. -/
theorem first?_utf8EncodeChar_append (behind : Option Fault) (char : Char) (rest : List UInt8) :
    first? behind (String.utf8EncodeChar char ++ rest) = .ok (char, rest) := by
  obtain ⟨lead, more, hbytes, hcount⟩ := following?_utf8EncodeChar char
  have hdecode := decode?_utf8EncodeChar char
  rw [hbytes] at hdecode ⊢
  simp [first?, hcount, hdecode]

/-- Where a decoder finds a character stands its UTF-8 form. -/
theorem eq_of_first?_ok {behind : Option Fault} {bytes rest : List UInt8} {char : Char}
    (h : first? behind bytes = .ok (char, rest)) : bytes = String.utf8EncodeChar char ++ rest := by
  cases bytes with
  | nil => simp [first?] at h
  | cons lead others =>
    rw [first?] at h
    split at h
    · cases h
    · rename_i count hcount
      split at h
      · cases h
      · rename_i hlength
        split at h
        · cases h
        · rename_i decoded hdecode
          simp only [Except.ok.injEq, Prod.mk.injEq] at h
          obtain ⟨rfl, rfl⟩ := h
          obtain ⟨more, hmore⟩ := exists_of_decode? hdecode
          obtain ⟨first, announced, hbytes, hannounced⟩ := following?_utf8EncodeChar decoded
          have hnil : more = [] := by
            have hlengths := congrArg List.length hmore
            rw [hbytes] at hmore hlengths
            obtain ⟨rfl, -⟩ := List.cons.inj hmore
            obtain rfl : count = announced.length :=
              Option.some.inj (hcount.symm.trans hannounced)
            simp only [List.length_cons, List.length_append, List.length_take] at hlengths
            exact List.eq_nil_of_length_eq_zero (by omega)
          rw [hnil, List.append_nil] at hmore
          rw [← hmore, List.cons_append, List.take_append_drop]

/-- A decoder meets the real end only where the bytes end and nothing is behind them. -/
theorem eq_nil_of_first?_error_none {behind : Option Fault} {bytes : List UInt8}
    (h : first? behind bytes = .error none) : bytes = [] ∧ behind = none := by
  cases bytes with
  | nil => simpa [first?] using h
  | cons lead others =>
    rw [first?] at h
    grind

/-- Every list of bytes is the UTF-8 form of characters and then bytes at which a decoder stops. -/
theorem exists_encode_append (behind : Option Fault) (bytes : List UInt8) :
    ∃ chars tail stop, bytes = encode chars ++ tail ∧ first? behind tail = .error stop := by
  induction hlength : bytes.length using Nat.strongRecOn generalizing bytes with
  | ind length ih =>
    cases found : first? behind bytes with
    | error stop => exact ⟨[], bytes, stop, rfl, found⟩
    | ok found' =>
      obtain ⟨char, rest⟩ := found'
      have hbytes := eq_of_first?_ok found
      have hshorter : rest.length < length := by
        have := char.utf8Size_pos
        rw [← hlength, hbytes, List.length_append, String.length_utf8EncodeChar]
        omega
      obtain ⟨chars, tail, stop, hrest, hstop⟩ := ih _ hshorter rest rfl
      exact ⟨char :: chars, tail, stop, by simp [hbytes, hrest], hstop⟩

end Parsing.Bytes.Utf8
