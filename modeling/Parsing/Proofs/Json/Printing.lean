import Parsing.Json.Printer
import Parsing.Proofs.Json.Document

/-!
# Reading what was printed

A value without floating-point numbers is printed as a document with that value, so it is read back. The
printer escapes with short escapes and single units of UTF-16 only, and writes no white space, which is
less than the parser understands.
-/

namespace Parsing.Json

/-! ## Values that are read back -/

/-- No number of the value is a floating-point number. -/
inductive Value.FloatFree : Value → Prop
  | null : FloatFree .null
  | bool (flag : Bool) : FloatFree (.bool flag)
  | integer (value : Int64) : FloatFree (.number (.integer value))
  | string (text : String) : FloatFree (.string text)
  | array {items : List Value} (h : ∀ item ∈ items, FloatFree item) : FloatFree (.array items)
  | object {members : Members} (h : ∀ member ∈ members.entries, FloatFree member.2) :
      FloatFree (.object members)

/-! ## Whole numbers -/

/-- The digits of a number start with zero only if that is all. -/
theorem isInteger_toDigits (n : Nat) : IsInteger (Nat.toDigits 10 n) := by
  induction n using Nat.strongRecOn with
  | ind n ih =>
    rw [Nat.toDigits_eq_if (by decide)]
    split
    · next hsmall =>
      by_cases hzero : n = 0
      · subst hzero
        exact .zero
      · exact .nonzero (by simpa using hsmall) (by simpa using hzero) (by simp)
    · next hlarge =>
      have hlast : (n % 10).digitChar.isDigit = true := by simp [Nat.mod_lt]
      have value : Nat.ofDigitChars 10 (Nat.toDigits 10 (n / 10)) 0 = n / 10 := Nat.ofDigitChars_ten_toDigits
      have written := ih (n / 10) (by omega)
      generalize Nat.toDigits 10 (n / 10) = digits at value written
      cases written with
      | zero =>
        -- what stands before the last digit would be zero, but there is more of the number than that digit
        have hzero : Nat.ofDigitChars 10 ['0'] 0 = 0 := by decide
        omega
      | nonzero hfirst hne hrest =>
        refine .nonzero hfirst hne fun char hchar => ?_
        rcases List.mem_append.1 hchar with hchar | hchar
        · exact hrest char hchar
        · rw [List.mem_singleton.1 hchar]
          exact hlast

/-- The characters of a sign. -/
def signChars (negative : Bool) : List Char := if negative then ['-'] else []

/-- A sign is printed as a sign. -/
theorem isSign_signChars (negative : Bool) : IsSign (signChars negative) negative := by
  cases negative with
  | false => exact .none
  | true => exact .minus

/-- The numeral of a whole number that is written with a sign, which zero may have too. -/
def Numeral.ofNat (negative : Bool) (size : Nat) : Numeral := ⟨negative, Nat.toDigits 10 size, none, none⟩

/-- The whole number with a sign and a magnitude. -/
def withSign (negative : Bool) (size : Nat) : Int := if negative then -(size : Int) else size

/-- A sign and the digits of a whole number are its numeral. -/
theorem isNumeral_ofNat (negative : Bool) (size : Nat) :
    IsNumeral (signChars negative ++ Nat.toDigits 10 size) (.ofNat negative size) := by
  have numeral := IsNumeral.mk (isSign_signChars negative) (isInteger_toDigits size) .none .none
  rwa [List.append_nil, List.append_nil] at numeral

/-- The numeral of a whole number writes that number. -/
theorem Numeral.written_ofNat (negative : Bool) (size : Nat) :
    (ofNat negative size).written = withSign negative size := by
  rw [written, ofNat, withSign]
  simp only [Nat.ofDigitChars_ten_toDigits]

/-- The numeral that a whole number is printed as. -/
def Numeral.ofInt (value : Int) : Numeral := ⟨value < 0, Nat.toDigits 10 value.natAbs, none, none⟩

/-- A whole number is printed as its sign and the digits of its magnitude. -/
theorem toList_toString (value : Int) :
    (toString value).toList = signChars (value < 0) ++ Nat.toDigits 10 value.natAbs := by
  rw [Int.toString_eq_repr, Int.repr_eq_if, signChars]
  split
  · next h => simp [Int.not_lt.2 h, show value.toNat = value.natAbs by omega]
  · next h => simp [Int.not_le.1 h, show (-value).toNat = value.natAbs by omega]

/-- A whole number is printed as a numeral. -/
theorem isNumeral_toString (value : Int) : IsNumeral (toString value).toList (.ofInt value) := by
  rw [toList_toString]
  exact isNumeral_ofNat (value < 0) value.natAbs

/-- The numeral is read as the whole number. -/
theorem Numeral.ofInt_written (value : Int) : (Numeral.ofInt value).written = value := by
  refine (written_ofNat (value < 0) value.natAbs).trans ?_
  simp only [withSign, decide_eq_true_eq]
  split <;> omega

/-- A whole number is printed as its own text. -/
theorem isValue_integer (value : Int64) :
    IsValue (Value.number (.integer value)).chars (.number (.integer value)) := by
  rw [Value.chars, Number.render]
  exact .number (isNumeral_toString value.toInt)
    (.integer rfl rfl (Numeral.ofInt_written value.toInt).symm)

/-! ## Strings -/

/-- Control characters are printed as four hexadecimal digits. -/
theorem isHexUnit_hexDigits4 {n : Nat} (h : n < 32) : IsHexUnit (Text.hexDigits4 n) n := by
  have all : ∀ n < 32, (Text.hexDigits4 n).length = 4 ∧
      (Text.hexDigits4 n).all (fun char => char ∈ "0123456789abcdefABCDEF".toList) = true ∧
      n = (unitOfDigits (Text.hexDigits4 n)).toNat := by decide
  obtain ⟨hlength, hdigits, hvalue⟩ := all n h
  exact isHexUnit_iff.2 ⟨hlength, forall_mem_of_all hdigits, hvalue⟩

/-- Every character is printed as a character of a string. -/
theorem isStringChar_escapeChar (char : Char) : IsStringChar (escapeChar char) char := by
  unfold escapeChar
  split
  · next h =>
    subst h
    exact .escape .quote
  split
  · next h =>
    subst h
    exact .escape .backslash
  split
  · next h =>
    subst h
    exact .escape .lineFeed
  split
  · next h =>
    subst h
    exact .escape .carriageReturn
  split
  · next h =>
    subst h
    exact .escape .tab
  split
  · next h =>
    subst h
    exact .escape .backspace
  split
  · next h =>
    subst h
    exact .escape .formFeed
  split
  · next hcontrol => exact .unicode (isHexUnit_hexDigits4 hcontrol)
  · next hquote hbackslash _ _ _ _ _ hcontrol => exact .plain (Char.not_lt.1 hcontrol) hquote hbackslash

/-- The printed characters repeat the characters of the text. -/
theorem repeats_escapeChar (text : List Char) : Repeats IsStringChar (text.flatMap escapeChar) text := by
  induction text with
  | nil => exact .nil
  | cons char text ih => exact .cons (isStringChar_escapeChar char) ih

/-- Every text is printed as a string. -/
theorem isString_quote (text : String) : IsString (quote text) text :=
  .mk (repeats_escapeChar text.toList)

/-! ## Arrays and objects

What is printed for the parts may stand for other values than the parts: `f` says which.
-/

variable {f : Value → Value}

/-- White space may be missing. -/
theorem isSpace_nil : IsSpace [] := fun _ h => absurd h List.not_mem_nil

/-- What is printed behind the first item is further items and the closing bracket. -/
theorem charsItems_eq {items : List Value} (h : ∀ item ∈ items, IsValue item.chars (f item)) :
    ∃ u, Value.charsItems items = u ++ [']'] ∧ IsItems u (items.map f) := by
  induction items with
  | nil => exact ⟨[], rfl, .nil⟩
  | cons item items ih =>
    obtain ⟨hitem, hitems⟩ := List.forall_mem_cons.1 h
    obtain ⟨u, hu, further⟩ := ih hitems
    refine ⟨_, ?_, .cons isSpace_nil isSpace_nil hitem further⟩
    rw [Value.charsItems, hu]
    simp

/-- Members with other values. -/
def MembersAfter.map (f : Value → Value) {bound : Option String} : MembersAfter bound → MembersAfter bound
  | .nil => .nil
  | .cons key value later h => .cons key (f value) (later.map f) h

/-- Members whose values are left alone are left alone. -/
theorem MembersAfter.map_id {bound : Option String} (members : MembersAfter bound) :
    members.map id = members := by
  induction members with
  | nil => rfl
  | cons _ key value later h ih => rw [map, ih, id]

/-- A member is printed as its key and its value. -/
theorem isMember_chars {member : String × Value} (h : IsValue member.2.chars (f member.2)) :
    IsMember (quote member.1 ++ ':' :: member.2.chars) (member.1, f member.2) :=
  .mk (isString_quote member.1) isSpace_nil isSpace_nil h

/-- What is printed behind the first member is further members and the closing brace. -/
theorem charsMembers_eq {bound : Option String} {members : MembersAfter bound}
    (h : ∀ member ∈ members.entries, IsValue member.2.chars (f member.2)) :
    ∃ u, Value.charsMembers members = u ++ ['\x7d'] ∧ IsMembers u (members.map f).entries := by
  induction members with
  | nil => exact ⟨[], rfl, .nil⟩
  | cons _ key value later _ ih =>
    obtain ⟨hmember, hlater⟩ := List.forall_mem_cons.1 h
    obtain ⟨u, hu, further⟩ := ih hlater
    refine ⟨_, ?_, .cons isSpace_nil isSpace_nil (isMember_chars hmember) further⟩
    rw [Value.charsMembers, hu]
    simp

/-- Items that are printed as values are printed as an array of those. -/
theorem isValue_array {items : List Value} (h : ∀ item ∈ items, IsValue item.chars (f item)) :
    IsValue (Value.array items).chars (.array (items.map f)) := by
  cases items with
  | nil => exact .emptyArray isSpace_nil
  | cons item items =>
    obtain ⟨hitem, hitems⟩ := List.forall_mem_cons.1 h
    obtain ⟨u, hu, further⟩ := charsItems_eq hitems
    have written := IsValue.array isSpace_nil hitem further isSpace_nil
    rw [Value.chars, hu]
    simpa using written

/-- Members whose values are printed as values are printed as an object of those. -/
theorem isValue_object {members : Members}
    (h : ∀ member ∈ members.entries, IsValue member.2.chars (f member.2)) :
    IsValue (Value.object members).chars (.object (members.map f)) := by
  cases members with
  | nil => exact .emptyObject isSpace_nil
  | cons key value later hkey =>
    obtain ⟨hmember, hlater⟩ := List.forall_mem_cons.1 h
    obtain ⟨u, hu, further⟩ := charsMembers_eq hlater
    have written := IsValue.object isSpace_nil (isMember_chars hmember) further isSpace_nil
      (Members.gather_entries (MembersAfter.map f (.cons key value later hkey)))
    rw [Value.chars, hu]
    simpa using written

/-! ## Values -/

/-- A value without floating-point numbers is printed as a text that stands for it. -/
theorem Value.FloatFree.isValue_chars {v : Value} (h : v.FloatFree) : IsValue v.chars v := by
  induction h with
  | null => exact .null
  | bool flag =>
    cases flag with
    | false => exact .boolFalse
    | true => exact .boolTrue
  | integer value => exact isValue_integer value
  | string text => exact .string (isString_quote text)
  | array _ ih =>
    have printed := isValue_array (f := id) ih
    rwa [List.map_id] at printed
  | object _ ih =>
    have printed := isValue_object (f := id) ih
    rwa [MembersAfter.map_id] at printed

/-- Items that are equal to themselves make equal arrays. -/
theorem equalItems_self {items : List Value} (h : ∀ item ∈ items, item.equal item = true) :
    Value.equalItems items items = true := by
  induction items with
  | nil => rfl
  | cons item items ih =>
    obtain ⟨hitem, hitems⟩ := List.forall_mem_cons.1 h
    rw [Value.equalItems, hitem, ih hitems]
    rfl

/-- Values that are equal to themselves make equal objects. -/
theorem equalMembers_self {bound : Option String} {members : MembersAfter bound}
    (h : ∀ member ∈ members.entries, member.2.equal member.2 = true) :
    Value.equalMembers members members = true := by
  induction members with
  | nil => rfl
  | cons _ key value later _ ih =>
    obtain ⟨hmember, hlater⟩ := List.forall_mem_cons.1 h
    rw [Value.equalMembers, hmember, ih hlater]
    simp

/-- A value without floating-point numbers is equal to itself. -/
theorem Value.FloatFree.equal_self {v : Value} (h : v.FloatFree) : v.equal v = true := by
  induction h with
  | null => rfl
  | bool flag => exact beq_self_eq_true flag
  | integer value => exact beq_self_eq_true value
  | string text => exact beq_self_eq_true text
  | array _ ih => exact equalItems_self ih
  | object _ ih => exact equalMembers_self ih

/-- What is printed as a value is printed as a document. -/
theorem isDocument_render {v w : Value} (h : IsValue v.chars w) : IsDocument v.render.toList w := by
  have document : IsDocument ([] ++ (v.chars ++ [])) w := .mk isSpace_nil h isSpace_nil
  rwa [List.nil_append, List.append_nil, ← String.toList_ofList (l := v.chars)] at document

/-- A value without floating-point numbers is read back from what is printed for it: with enough steps
parsing reports a value that is equal to it. The members of its objects are in order, as those of every
object. -/
theorem parse_render {v : Value} (h : v.FloatFree) : ∃ w,
    (∃ needed, ∀ budget, needed ≤ budget → parse {} budget (TextCursor.ofText v.render) = some (.ok w)) ∧
      w.equal v = true := by
  have document : IsDocument (TextCursor.ofText v.render).rest v := isDocument_render h.isValue_chars
  obtain ⟨position, ran⟩ := document_accepts document
  exact ⟨v, parse_of_yields ran, h.equal_self⟩

/-- An object that was given an escaped key behind a later one, with the smallest whole number and an empty
array. -/
theorem parse_render_object :
    let smallest := Value.number (.integer Int64.minValue)
    let v := Value.object (Members.ofList [("a", .null), ("\n", .array [smallest, .array []])])
    ∃ w,
      (∃ needed, ∀ budget, needed ≤ budget → parse {} budget (TextCursor.ofText v.render) = some (.ok w)) ∧
        w.equal v = true := by
  intro smallest v
  have none : ∀ {p : Value → Prop}, ∀ item ∈ [], p item := fun _ h => absurd h List.not_mem_nil
  have items : (Value.array [smallest, .array []]).FloatFree :=
    .array (List.forall_mem_cons.2 ⟨.integer _, List.forall_mem_singleton.2 (.array none)⟩)
  have ordered : (Members.ofList [("a", .null), ("\n", .array [smallest, .array []])]).entries =
      [("\n", .array [smallest, .array []]), ("a", .null)] := by
    have earlier : "\n" < "a" := by decide
    simp [Members.ofList, Members.insert, MembersAfter.insert, MembersAfter.entries, earlier]
  refine parse_render (.object ?_)
  rw [ordered]
  exact List.forall_mem_cons.2 ⟨items, List.forall_mem_singleton.2 .null⟩

end Parsing.Json
