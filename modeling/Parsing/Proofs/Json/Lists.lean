import Parsing.Json.Grammar
import Parsing.Proofs.Json.Syntax
import Parsing.Proofs.Parser.Deciding

/-!
# Parsing lists in brackets

Arrays and objects are lists in brackets, with commas between the items and white space around items,
commas and brackets. A comma is consumed only together with the item behind it, so a list with a comma
too many is rejected at that comma.
-/

namespace Parsing.Json

open Parsing.Parser

variable {c : TextCursor} {t rest w w' : List Char} {grammar : Grammar Rule}

/-! ## White space -/

/-- The text of white space has the characters of white space. -/
theorem mem_whitespace_iff {char : Char} :
    char ∈ (String.ofList whitespaceChars).toList ↔ char ∈ whitespaceChars := by
  rw [String.toList_ofList]

/-- No white space comes next. -/
abbrev NoSpace (rest : List Char) : Prop := NotNext (· ∈ whitespaceChars) rest

/-- White space is accepted up to where it ends. -/
theorem whitespaces_accepts (hw : IsSpace w) (hrest : c.rest = w ++ rest) (hend : NoSpace rest) :
    (whitespaces : Parser Rule (List Char)).Accepts grammar c w w :=
  collect_oneOf_accepts (fun char hchar => mem_whitespace_iff.2 (hw char hchar)) hrest
    (hend.mono fun _ => mem_whitespace_iff.1)

/-- White space is read and nothing else, and it may be missing. -/
theorem decides_whitespaces : (whitespaces : Parser Rule (List Char)).Decides grammar
    (fun t _ => IsSpace t) c := by
  refine (Decides.collect_tryItem (fun _ _ => decides_oneOf _) (by simp) []).mono ?_
  rintro t value ⟨more, hmore, -⟩
  obtain ⟨rfl, hall⟩ := hmore.of_chars
  exact fun char hchar => mem_whitespace_iff.1 (hall char hchar)

/-- White space behind white space is white space. -/
theorem IsSpace.append (hw : IsSpace w) (hw' : IsSpace w') : IsSpace (w ++ w') := by
  intro char hchar
  rcases List.mem_append.1 hchar with h | h
  · exact hw char h
  · exact hw' char h

/-- A text with white space around it. -/
def spaced (text : String) : Parser Rule (List Char) :=
  chain whitespaces (chain (literal text) whitespaces)

/-- A sign is accepted with the white space around it. -/
theorem spaced_accepts {text : String} {char : Char} (htext : text.toList = [char])
    (hchar : char ∉ whitespaceChars) (hw : IsSpace w) (hw' : IsSpace w')
    (hrest : c.rest = w ++ (char :: w') ++ rest) (hend : NoSpace rest) :
    (spaced text).Accepts grammar c w' (w ++ (char :: w')) := by
  have hfirst : c.rest = w ++ (text.toList ++ (w' ++ rest)) := by simpa [htext] using hrest
  have before : (whitespaces : Parser Rule (List Char)).Accepts grammar c w w :=
    whitespaces_accepts hw hfirst (by simpa [htext] using hchar)
  have hsecond := TextCursor.rest_past hfirst
  have behind : (chain (literal text) whitespaces).Accepts grammar (c.past w) w' (text.toList ++ w') :=
    (literal_accepts hsecond).chain (whitespaces_accepts hw' (TextCursor.rest_past hsecond) hend)
  have accepted : (spaced text).Accepts grammar c w' (w ++ (text.toList ++ w')) := before.chain behind
  rwa [htext] at accepted

/-- White space in front of anything else is given back. -/
theorem spaced_rejects {text : String} {char : Char} (htext : text.toList = [char]) (hw : IsSpace w)
    (hrest : c.rest = w ++ rest) (hend : NoSpace rest) (hother : NotNext (· = char) rest) :
    (spaced text).Rejects grammar c (w ++ []) := by
  have hpast := TextCursor.rest_past hrest
  exact (whitespaces_accepts hw hrest hend).bind_rejects
    (literal_rejects_of_notNext htext (by rwa [hpast])).bind

/-- A sign is read with white space around it, or the parser rejects. -/
theorem decides_spaced (text : String) : (spaced text).Decides grammar
    (fun s _ => ∃ w w', s = w ++ (text.toList ++ w') ∧ IsSpace w ∧ IsSpace w') c := by
  refine decides_whitespaces.chain fun w rest _ _ hw => ?_
  refine (decides_literal text).chain fun u rest' _ _ hu => decides_whitespaces.mono ?_
  obtain ⟨rfl, -⟩ := hu
  exact fun w' _ hw' => ⟨w, w', rfl, hw, hw'⟩

/-! ## Lists -/

variable {α : Type} {item : Parser Rule α}

/-- A list in brackets. -/
def listed (opening closing : String) (item : Parser Rule α) : Parser Rule (List α) :=
  enclosedBy (separatedBy item separator) (chain (literal opening) whitespaces)
    (chain whitespaces (literal closing))

/-- Further items of a list, each behind a comma. -/
def furtherItems (item : Parser Rule α) (newestFirst : List α) : Parser Rule (List α) :=
  collect (tryItem (chain separator item)) newestFirst

/-- The list goes on with a comma and an item. -/
theorem furtherItems_accepts_cons {value : α} {values newestFirst : List α} {u : List Char}
    (hw : IsSpace w) (hw' : IsSpace w') (hrest : c.rest = w ++ (',' :: w') ++ t ++ u ++ rest)
    (hend : ∀ rest, NoSpace (t ++ rest))
    (first : ∀ {d : TextCursor}, d.rest = t ++ (u ++ rest) → item.Accepts grammar d value t)
    (more : ∀ {d : TextCursor}, d.rest = u ++ rest →
      (furtherItems item (value :: newestFirst)).Accepts grammar d values u) :
    (furtherItems item newestFirst).Accepts grammar c values (w ++ (',' :: w') ++ t ++ u) := by
  have hcomma : c.rest = w ++ (',' :: w') ++ (t ++ (u ++ rest)) := by simpa using hrest
  have hfirst := TextCursor.rest_past hcomma
  have hmore := TextCursor.rest_past hfirst
  rw [← TextCursor.past_append] at hmore
  have comma : (separator : Parser Rule (List Char)).Accepts grammar c w' (w ++ (',' :: w')) :=
    spaced_accepts rfl (by decide) hw hw' hcomma (hend _)
  exact (comma.chain (first hfirst)).tryItem.collect_some (by simp) (more hmore)

/-- The list ends before the closing bracket. -/
theorem furtherItems_accepts_nil {closing : Char} {newestFirst : List α} (hw : IsSpace w)
    (hrest : c.rest = w ++ closing :: rest) (hclosing : closing ∉ whitespaceChars) (hcomma : closing ≠ ',') :
    (furtherItems item newestFirst).Accepts grammar c newestFirst.reverse [] := by
  have other : NotNext (· = ',') (closing :: rest) := by simpa using hcomma
  have comma : (separator : Parser Rule (List Char)).Rejects grammar c (w ++ []) :=
    spaced_rejects rfl hw hrest (by simpa using hclosing) other
  exact Accepts.collect_none (Rejects.tryItem comma.bind)

section

variable {left right : String} {opening closing : Char} {value : α} {values : List α} {u : List Char}

/-- An opening bracket is accepted with the white space behind it. -/
theorem opening_accepts (hleft : left.toList = [opening]) (hw : IsSpace w)
    (hrest : c.rest = opening :: w ++ rest) (hend : NoSpace rest) :
    (chain (literal left) whitespaces : Parser Rule (List Char)).Accepts grammar c w (opening :: w) := by
  have hfirst : c.rest = left.toList ++ (w ++ rest) := by simpa [hleft] using hrest
  have accepted : (chain (literal left) whitespaces : Parser Rule (List Char)).Accepts grammar c w
      (left.toList ++ w) :=
    (literal_accepts hfirst).chain (whitespaces_accepts hw (TextCursor.rest_past hfirst) hend)
  rwa [hleft] at accepted

/-- A closing bracket is accepted with the white space in front. -/
theorem closing_accepts (hright : right.toList = [closing]) (hclosing : closing ∉ whitespaceChars)
    (hw : IsSpace w) (hrest : c.rest = w ++ [closing] ++ rest) :
    (chain whitespaces (literal right) : Parser Rule String).Accepts grammar c right (w ++ [closing]) := by
  have hfirst : c.rest = w ++ (right.toList ++ rest) := by simpa [hright] using hrest
  have accepted : (chain whitespaces (literal right) : Parser Rule String).Accepts grammar c right
      (w ++ right.toList) :=
    (whitespaces_accepts hw hfirst (by simpa [hright] using hclosing)).chain
      (literal_accepts (TextCursor.rest_past hfirst))
  rwa [hright] at accepted

/-- A list without items. -/
theorem listed_accepts_nil (hleft : left.toList = [opening]) (hright : right.toList = [closing])
    (hclosing : closing ∉ whitespaceChars) (hw : IsSpace w)
    (hrest : c.rest = opening :: w ++ [closing] ++ rest)
    (rejected : item.Rejects grammar (c.past (opening :: w)) t) :
    (listed left right item).Accepts grammar c [] (opening :: w ++ [closing]) := by
  have hfirst : c.rest = opening :: w ++ (closing :: rest) := by simpa using hrest
  have start : (chain (literal left) whitespaces : Parser Rule (List Char)).Accepts grammar c w
      (opening :: w) := opening_accepts hleft hw hfirst (by simpa using hclosing)
  have empty : (separatedBy item separator : Parser Rule (List α)).Accepts grammar
      (c.past (opening :: w)) [] ([] ++ []) := rejected.tryItem.bind (unit_accepts [] _)
  have last : (chain whitespaces (literal right) : Parser Rule String).Accepts grammar
      (c.past (opening :: w)) right ([] ++ [closing]) :=
    closing_accepts hright hclosing (by simp [IsSpace]) (TextCursor.rest_past hfirst)
  exact start.chain (empty.left last)

/-- A list with items, of which the further ones are accepted up to the closing bracket. -/
theorem listed_accepts_cons (hleft : left.toList = [opening]) (hright : right.toList = [closing])
    (hclosing : closing ∉ whitespaceChars) (hw : IsSpace w) (hw' : IsSpace w')
    (hrest : c.rest = opening :: w ++ (t ++ u ++ (w' ++ [closing])) ++ rest)
    (hend : ∀ rest, NoSpace (t ++ rest))
    (first : ∀ {d : TextCursor}, d.rest = t ++ (u ++ (w' ++ closing :: rest)) → item.Accepts grammar d value t)
    (more : ∀ {d : TextCursor}, d.rest = u ++ (w' ++ closing :: rest) →
      (furtherItems item [value]).Accepts grammar d (value :: values) u) :
    (listed left right item).Accepts grammar c (value :: values)
      (opening :: w ++ (t ++ u ++ (w' ++ [closing]))) := by
  have hstart : c.rest = opening :: w ++ (t ++ (u ++ (w' ++ closing :: rest))) := by simpa using hrest
  have hfirst := TextCursor.rest_past hstart
  have hmore := TextCursor.rest_past hfirst
  have hlast := TextCursor.rest_past hmore
  rw [← TextCursor.past_append] at hlast
  have start : (chain (literal left) whitespaces : Parser Rule (List Char)).Accepts grammar c w
      (opening :: w) := opening_accepts hleft hw hstart (hend _)
  have items : (separatedBy item separator : Parser Rule (List α)).Accepts grammar
      (c.past (opening :: w)) (value :: values) (t ++ u) := (first hfirst).tryItem.bind (more hmore)
  have last : (chain whitespaces (literal right) : Parser Rule String).Accepts grammar
      ((c.past (opening :: w)).past (t ++ u)) right (w' ++ [closing]) :=
    closing_accepts hright hclosing hw' (by simpa using hlast)
  exact start.chain (items.left last)

end

/-- A further item, with the comma before it. -/
inductive IsFurther (language : List Char → α → Prop) : List Char → α → Prop
  | mk {w w' t : List Char} {value : α} (hw : IsSpace w) (hw' : IsSpace w') (h : language t value) :
      IsFurther language (w ++ (',' :: w') ++ t) value

/-- The lists in brackets with items of a language. -/
inductive IsListed (left right : String) (language : List Char → α → Prop) : List Char → List α → Prop
  | nil {w : List Char} (hw : IsSpace w) : IsListed left right language (left.toList ++ w ++ right.toList) []
  | cons {w t u w' : List Char} {value : α} {values : List α} (hw : IsSpace w) (h : language t value)
      (hmore : Repeats (IsFurther language) u values) (hw' : IsSpace w') :
      IsListed left right language (left.toList ++ w ++ (t ++ u ++ (w' ++ right.toList))) (value :: values)

section

variable {left right : String} {language : List Char → α → Prop}

/-- An opening bracket is read with white space behind it, or the parser rejects. -/
theorem decides_opening (left : String) :
    (chain (literal left) whitespaces : Parser Rule (List Char)).Decides grammar
      (fun s _ => ∃ w, s = left.toList ++ w ∧ IsSpace w) c := by
  refine (decides_literal left).chain fun s _ _ _ hs => decides_whitespaces.mono ?_
  obtain ⟨rfl, -⟩ := hs
  exact fun w _ hw => ⟨w, rfl, hw⟩

/-- A closing bracket is read with white space in front, or the parser rejects. -/
theorem decides_closing (right : String) :
    (chain whitespaces (literal right) : Parser Rule String).Decides grammar
      (fun s _ => ∃ w, s = w ++ right.toList ∧ IsSpace w) c := by
  refine decides_whitespaces.chain fun w _ _ _ hw => (decides_literal right).mono ?_
  rintro s _ ⟨rfl, -⟩
  exact ⟨w, rfl, hw⟩

/-- A comma with an item behind it. -/
theorem decides_further (h : ∀ d : TextCursor, d.rest.length ≤ c.rest.length → item.Decides grammar language d) :
    (chain separator item).Decides grammar (IsFurther language) c := by
  refine Decides.chain (decides_spaced ",") fun s rest _ hrest hs => ?_
  obtain ⟨w, w', rfl, hw, hw'⟩ := hs
  refine (h _ ?_).mono fun t value ht => .mk hw hw' ht
  rw [TextCursor.rest_past hrest, hrest, List.length_append]
  omega

/-- Items are read with separators between them, or the parser rejects. It is enough that the item decides its
language from here on. -/
theorem decides_separatedBy
    (h : ∀ d : TextCursor, d.rest.length ≤ c.rest.length → item.Decides grammar language d) :
    (separatedBy item separator).Decides grammar
      (fun s values => s = [] ∧ values = [] ∨ ∃ t u value more, s = t ++ u ∧ language t value ∧
        Repeats (IsFurther language) u more ∧ values = value :: more) c := by
  have first : (tryItem item).Decides grammar
      (fun t value => value = none ∧ t = [] ∨ ∃ v, value = some v ∧ language t v) c :=
    Decides.tryItem ((h c (Nat.le_refl _)).mono fun t value ht => .inr ⟨value, rfl, ht⟩) (.inl ⟨rfl, rfl⟩)
  refine first.bind fun t rest value hrest ht => ?_
  rcases ht with ⟨rfl, rfl⟩ | ⟨value, rfl, ht⟩
  · exact decides_unit (.inl ⟨rfl, rfl⟩)
  · have hshorter : (c.past t).rest.length ≤ c.rest.length := by
      rw [TextCursor.rest_past hrest, hrest, List.length_append]
      omega
    refine (Decides.collect_tryItem (fun d hd => decides_further fun e he => h e ?_) ?_ [value]).mono ?_
    · exact Nat.le_trans he (Nat.le_trans hd hshorter)
    · intro value hvalue
      generalize hnil : ([] : List Char) = s at hvalue
      cases hvalue
      simp at hnil
    · rintro u values ⟨more, hmore, rfl⟩
      exact .inr ⟨t, u, value, more, rfl, ht, hmore, rfl⟩

/-- Behind the opening bracket less of the text is left, so that is where items have to be decided. -/
theorem decides_listed (hleft : left.toList ≠ [])
    (h : ∀ d : TextCursor, d.rest.length < c.rest.length → item.Decides grammar language d) :
    (listed left right item).Decides grammar (IsListed left right language) c := by
  refine (decides_opening left).chain fun s rest _ hrest hs => ?_
  obtain ⟨w, rfl, hw⟩ := hs
  have hshorter : (c.past (left.toList ++ w)).rest.length < c.rest.length := by
    have := List.length_pos_iff.2 hleft
    rw [TextCursor.rest_past hrest, hrest, List.length_append, List.length_append]
    omega
  refine ((decides_separatedBy fun d hd => h d (Nat.lt_of_le_of_lt hd hshorter)).left
    fun _ => decides_closing right).mono ?_
  rintro u values ⟨items, _, _, rfl, ⟨rfl, rfl⟩ | ⟨t, u', value, more, rfl, ht, hmore, rfl⟩, w', rfl, hw'⟩
  · have written : IsListed left right language (left.toList ++ (w ++ w') ++ right.toList) [] :=
      .nil (hw.append hw')
    simpa using written
  · exact .cons hw ht hmore hw'

end

end Parsing.Json
