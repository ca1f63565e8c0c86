import Parsing.Proofs.Json.Floats

/-!
# Parsing, printing and parsing again

Whatever value is parsed, or comes about otherwise, is printed as a document. Numbers that lose their point
and numbers that are not finite come back as other values; all else comes back as it was.
-/

namespace Parsing.Json

/-- Whether a number comes back as itself once it is printed: whole numbers do, and finite floating-point
numbers that do not lose their point. -/
def Number.comesBack : Number → Bool
  | integer _ => true
  | float x => x.isFinite && !losesPoint x.rank

namespace Value

mutual

/-- The value that comes back once a value is printed. -/
def reread : Value → Value
  | number n => n.reread
  | array items => .array (rereadItems items)
  | object members => .object (rereadMembers members)
  | null => null
  | bool flag => .bool flag
  | string text => .string text

/-- The items that come back. -/
def rereadItems : List Value → List Value
  | [] => []
  | item :: items => reread item :: rereadItems items

/-- The members that come back, with their keys. -/
def rereadMembers {bound : Option String} : MembersAfter bound → MembersAfter bound
  | .nil => .nil
  | .cons key item later h => .cons key (reread item) (rereadMembers later) h

end

mutual

/-- The numbers in a value. -/
def numbers : Value → List Number
  | number n => [n]
  | array items => numbersItems items
  | object members => numbersMembers members
  | null | bool _ | string _ => []

/-- The numbers in items. -/
def numbersItems : List Value → List Number
  | [] => []
  | item :: items => numbers item ++ numbersItems items

/-- The numbers in the values of members. -/
def numbersMembers {bound : Option String} : MembersAfter bound → List Number
  | .nil => []
  | .cons _ item later _ => numbers item ++ numbersMembers later

end

/-- Items are read back one by one. -/
theorem rereadItems_eq (items : List Value) : rereadItems items = items.map reread := by
  induction items with
  | nil => rfl
  | cons item items ih => rw [rereadItems, ih, List.map_cons]

/-- Members keep their keys when they are read back. -/
theorem rereadMembers_eq {bound : Option String} (members : MembersAfter bound) :
    rereadMembers members = members.map reread := by
  induction members with
  | nil => rfl
  | cons _ key value later h ih => rw [rereadMembers, MembersAfter.map, ih]

/-! ## What is printed -/

mutual

/-- A value is printed as the text of the value that comes back. -/
theorem isValue_reread (v : Value) : IsValue v.chars v.reread := by
  cases v with
  | null => exact .null
  | bool flag =>
    cases flag with
    | false => exact .boolFalse
    | true => exact .boolTrue
  | number n => exact isValue_number n
  | string text => exact .string (isString_quote text)
  | array items =>
    rw [reread, rereadItems_eq]
    exact isValue_array (isValue_reread_items items)
  | object members =>
    rw [reread, rereadMembers_eq]
    exact isValue_object (isValue_reread_members members)

/-- So is every item of an array. -/
theorem isValue_reread_items (items : List Value) : ∀ item ∈ items, IsValue item.chars item.reread := by
  cases items with
  | nil => exact fun _ h => absurd h List.not_mem_nil
  | cons item items => exact List.forall_mem_cons.2 ⟨isValue_reread item, isValue_reread_items items⟩

/-- So is the value of every member of an object. -/
theorem isValue_reread_members {bound : Option String} (members : MembersAfter bound) :
    ∀ member ∈ members.entries, IsValue member.2.chars member.2.reread := by
  cases members with
  | nil => exact fun _ h => absurd h List.not_mem_nil
  | cons key value later _ =>
    exact List.forall_mem_cons.2 ⟨isValue_reread value, isValue_reread_members later⟩

end

/-! ## What comes back -/

/-- A number that comes back as a whole number or as `null` is not equal to what was printed. -/
theorem equal_reread_number (n : Number) : n.reread.equal (.number n) = n.comesBack := by
  cases n with
  | integer value => exact beq_self_eq_true value
  | float x =>
    rw [Number.reread, Number.comesBack]
    cases hfinite : x.isFinite with
    | false => rfl -- `null` is not equal to a number
    | true =>
      have hnan : x.isNaN = false := by
        have hrank : x.rank < Binary64.infinity := by simpa [Binary64.isFinite] using hfinite
        simpa [Binary64.isNaN] using Nat.le_of_lt hrank
      rw [if_pos rfl, rereadFloat]
      cases losesPoint x.rank with
      | true => rfl
      | false => simp [equal, Number.equal, Binary64.equal, hnan]

mutual

/-- What comes back is equal to what was printed exactly if every number in it comes back. -/
theorem equal_reread_iff (v : Value) : v.reread.equal v = true ↔ ∀ n ∈ v.numbers, n.comesBack = true := by
  cases v with
  | number n => simp [reread, numbers, equal_reread_number]
  | array items => exact equalItems_reread_iff items
  | object members => exact equalMembers_reread_iff members
  | null => simp [reread, equal, numbers]
  | bool flag => simp [reread, equal, numbers]
  | string text => simp [reread, equal, numbers]

/-- Items come back equal exactly if all their numbers do. -/
theorem equalItems_reread_iff (items : List Value) :
    equalItems (rereadItems items) items = true ↔ ∀ n ∈ numbersItems items, n.comesBack = true := by
  cases items with
  | nil => simp [rereadItems, equalItems, numbersItems]
  | cons item items =>
    rw [rereadItems, equalItems, numbersItems, Bool.and_eq_true, List.forall_mem_append,
      equal_reread_iff item, equalItems_reread_iff items]

/-- Members come back equal exactly if all their numbers do. -/
theorem equalMembers_reread_iff {bound : Option String} (members : MembersAfter bound) :
    equalMembers (rereadMembers members) members = true ↔
      ∀ n ∈ numbersMembers members, n.comesBack = true := by
  cases members with
  | nil => simp [rereadMembers, equalMembers, numbersMembers]
  | cons key item later _ =>
    rw [rereadMembers, equalMembers, numbersMembers, Bool.and_eq_true, Bool.and_eq_true,
      List.forall_mem_append, equal_reread_iff item, equalMembers_reread_iff later]
    simp

end

end Value

/-! ## Documents -/

/-- Every value, parsed or not, is printed as a document that is parsed. What comes back is equal to the value
exactly if all of its numbers come back: if its floating-point numbers are finite and do not lose their
point. -/
theorem parse_render_reread (v : Value) :
    (∃ needed, ∀ budget, needed ≤ budget →
      parse {} budget (TextCursor.ofText v.render) = some (.ok v.reread)) ∧
      (v.reread.equal v = true ↔ ∀ n ∈ v.numbers, n.comesBack = true) := by
  have document : IsDocument (TextCursor.ofText v.render).rest v.reread := isDocument_render v.isValue_reread
  obtain ⟨_, accepted⟩ := document_accepts document
  exact ⟨parse_of_yields accepted, v.equal_reread_iff⟩

/-- The text `1e16` stands for a floating-point number. -/
theorem isDocument_ten_pow_sixteen :
    IsDocument "1e16".toList (.number (.float ⟨0x4341c37937e08000⟩)) := by
  have one : IsInteger ['1'] := .nonzero rfl (by decide) fun _ h => absurd h List.not_mem_nil
  have sixteen : IsDigits ['1', '6'] := ⟨List.cons_ne_nil _ _, forall_mem_of_all rfl⟩
  have numeral : IsNumeral "1e16".toList ⟨false, ['1'], none, some ⟨false, ['1', '6']⟩⟩ :=
    .mk .none one .none (.some (.inl rfl) .none sixteen)
  have read : .float ⟨0x4341c37937e08000⟩ =
      (Numeral.mk false ['1'] none (some ⟨false, ['1', '6']⟩)).toNumber := by decide +kernel
  exact .mk isSpace_nil (.number numeral (numeral.denotes_iff.2 read)) isSpace_nil

/-- It is printed without a point, and comes back as a whole number. -/
theorem parse_render_of_ten_pow_sixteen : ∃ v w,
    (∃ budget, parse {} budget (TextCursor.ofText "1e16") = some (.ok v)) ∧
      v.render = "10000000000000000" ∧
      (∃ needed, ∀ budget, needed ≤ budget → parse {} budget (TextCursor.ofText v.render) = some (.ok w)) ∧
      v = .number (.float ⟨0x4341c37937e08000⟩) ∧ w = .number (.integer 10000000000000000) ∧
      w.equal v = false := by
  obtain ⟨_, accepted⟩ := document_accepts (c := TextCursor.ofText "1e16") isDocument_ten_pow_sixteen
  obtain ⟨needed, parsed⟩ := parse_of_yields accepted
  obtain ⟨again, hequal⟩ := parse_render_reread (.number (.float ⟨0x4341c37937e08000⟩))
  have printed : (Number.float ⟨0x4341c37937e08000⟩).render = "10000000000000000" := by decide +kernel
  have read : rereadFloat ⟨0x4341c37937e08000⟩ = .integer 10000000000000000 := by decide +kernel
  have lost : (Number.float ⟨0x4341c37937e08000⟩).comesBack = false := by decide +kernel
  refine ⟨_, _, ⟨needed, parsed needed (Nat.le_refl needed)⟩, ?_, again, rfl, ?_, ?_⟩
  · rw [Value.render, Value.chars, printed, String.ofList_toList]
  · rw [Value.reread, Number.reread, if_pos (by decide +kernel), read]
  · refine Bool.eq_false_iff.2 fun same => ?_
    have all := hequal.1 same
    rw [Value.numbers, List.forall_mem_singleton, lost] at all
    cases all

end Parsing.Json
