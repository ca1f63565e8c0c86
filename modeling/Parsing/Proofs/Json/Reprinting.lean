import Parsing.Proofs.Json.Rereading

/-!
# Printing again what was read back

A value that is printed and parsed may come back as another value: numbers that are not finite come back as
`null`, and floating-point numbers that lose their point as whole numbers. But the text is the same from then
on. What comes back is printed exactly as the value was, number by number and at any depth.
-/

namespace Parsing.Json

open Binary64

/-- Unless it is zero, a whole number with a sign is written with that sign and its digits. -/
theorem toList_toString_withSign (negative : Bool) {size : Nat} (h : 0 < size) :
    (toString (withSign negative size)).toList = signChars negative ++ Nat.toDigits 10 size := by
  have hsign : decide (withSign negative size < 0) = negative := by
    cases negative with
    | false => exact decide_eq_false (by rw [withSign, if_neg Bool.false_ne_true]; omega)
    | true => exact decide_eq_true (by rw [withSign, if_pos rfl]; omega)
  have hsize : (withSign negative size).natAbs = size := by
    rw [withSign]
    split <;> omega
  rw [toList_toString, hsign, hsize]

/-- A floating-point number that loses its point is printed like the whole number that it comes back as. -/
theorem render_rereadFloat {x : Binary64} (hfinite : x.isFinite = true) :
    (rereadFloat x).render = (Number.float x).render := by
  rw [rereadFloat]
  split
  · next lost =>
    obtain ⟨whole, large, below⟩ := losesPoint_iff.1 lost
    have hrank : x.rank < infinity := by simpa [isFinite] using hfinite
    -- a negative zero would lose its sign, but zero keeps its point
    have hpos := wholeOf_pos_of_large hrank whole large
    apply String.toList_inj.1
    rw [toList_render_float hfinite, toList_floatMagnitude hrank whole large, Number.render,
      toInt_ofInt_withSign x.negative (wholeOf_lt hrank whole below), toList_toString_withSign x.negative hpos]
  · rfl

/-- What a number comes back as is printed as the number was. -/
theorem chars_reread_number (n : Number) : n.reread.chars = (Value.number n).chars := by
  cases n with
  | integer value => rfl
  | float x =>
    rw [Number.reread, Value.chars]
    split
    · next hfinite => rw [Value.chars, render_rereadFloat hfinite]
    · next hfinite => rw [Value.chars, Number.render, if_neg hfinite]

namespace Value

mutual

/-- What a value comes back as is printed as the value was. -/
theorem chars_reread (v : Value) : v.reread.chars = v.chars := by
  cases v with
  | number n => exact chars_reread_number n
  | array items =>
    cases items with
    | nil => rfl
    | cons item items =>
      rw [reread, rereadItems, chars, chars, chars_reread item, charsItems_rereadItems items]
  | object members =>
    cases members with
    | nil => rfl
    | cons key item later _ =>
      rw [reread, rereadMembers, chars, chars, chars_reread item, charsMembers_rereadMembers later]
  | null => rfl
  | bool flag => rfl
  | string text => rfl

/-- Items are printed in the same way after they have been read back. -/
theorem charsItems_rereadItems (items : List Value) : charsItems (rereadItems items) = charsItems items := by
  cases items with
  | nil => rfl
  | cons item items =>
    rw [rereadItems, charsItems, charsItems, chars_reread item, charsItems_rereadItems items]

/-- Members are printed in the same way after they have been read back. -/
theorem charsMembers_rereadMembers {bound : Option String} (members : MembersAfter bound) :
    charsMembers (rereadMembers members) = charsMembers members := by
  cases members with
  | nil => rfl
  | cons key item later _ =>
    rw [rereadMembers, charsMembers, charsMembers, chars_reread item, charsMembers_rereadMembers later]

end

end Value

/-- Every value is printed as a document that is parsed, and what is parsed is printed as the same text. This
includes values with numbers that are not finite, with negative zeros, and with floating-point numbers of any
size. -/
theorem render_parse_render (v : Value) : ∃ w,
    (∃ needed, ∀ budget, needed ≤ budget → parse {} budget (TextCursor.ofText v.render) = some (.ok w)) ∧
      w.render = v.render := by
  have document : IsDocument (TextCursor.ofText v.render).rest v.reread := isDocument_render v.isValue_reread
  obtain ⟨position, accepted⟩ := document_accepts document
  exact ⟨v.reread, parse_of_yields accepted, congrArg String.ofList v.chars_reread⟩

/-- An infinite number, a negative zero and `-1e16` behind a key that is escaped. -/
theorem render_parse_render_floats :
    let v := Value.object (Members.ofList [("\n", .array [.number (.float ⟨0x7ff0000000000000⟩),
      .number (.float ⟨0x8000000000000000⟩), .number (.float ⟨0xc341c37937e08000⟩)])])
    v.render = "\x7b\"\\n\":[null,-0.0,-10000000000000000]\x7d" ∧ ∃ w,
      (∃ needed, ∀ budget, needed ≤ budget → parse {} budget (TextCursor.ofText v.render) = some (.ok w)) ∧
        w.render = v.render :=
  ⟨by decide +kernel, render_parse_render _⟩

end Parsing.Json
