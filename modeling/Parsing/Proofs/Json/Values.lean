import Parsing.Proofs.Json.Lists
import Parsing.Proofs.Json.Members
import Parsing.Proofs.Json.Numbers
import Parsing.Proofs.Json.Strings

/-!
# Parsing values

The parser for values decides which texts are values. It accepts every value as a whole where a
delimiter or the end of the text follows, because only numbers could go on there, and delimiters do not
continue numbers. Items of arrays and members of objects are always followed by delimiters.
-/

namespace Parsing.Json

open Parsing.Parser

variable {c : TextCursor} {t rest : List Char}

/-! ## Delimiters -/

/-- The characters that may follow a value. -/
def delimiters : List Char := whitespaceChars ++ [',', ']', '\x7d']

/-- A delimiter comes next, or nothing. -/
def Delimited (rest : List Char) : Prop := NotNext (· ∉ delimiters) rest

/-- The end of a text ends a value. -/
theorem delimited_nil : Delimited [] := notNext_nil _

/-- A delimiter ends a value. -/
theorem delimited_cons {char : Char} (h : char ∈ delimiters) : Delimited (char :: rest) :=
  notNext_cons.2 fun hnot => hnot h

/-- White space ends a value too. -/
theorem Delimited.append_space {w : List Char} (hw : IsSpace w) (h : Delimited rest) :
    Delimited (w ++ rest) := by
  cases w with
  | nil => exact h
  | cons char w => exact delimited_cons (List.mem_append_left _ (hw char List.mem_cons_self))

/-- Delimiters do not continue numbers. -/
theorem Delimited.endsNumber (h : Delimited rest) : EndsNumber rest := by
  have all : ∀ char ∈ delimiters, char.isDigit = false ∧ char ≠ '.' ∧ char ≠ 'e' ∧ char ≠ 'E' :=
    forall_mem_of_all (by decide)
  refine ⟨h.mono fun char hdigit hmem => ?_, h.mono fun char hpoint hmem => (all char hmem).2.1 hpoint,
    h.mono fun char hletter hmem => ?_⟩
  · rw [(all char hmem).1] at hdigit
    cases hdigit
  · exact hletter.elim (all char hmem).2.2.1 (all char hmem).2.2.2

/-- A number starts with a minus or with a digit. -/
theorem IsNumeral.exists_cons {n : Numeral} (h : IsNumeral t n) :
    ∃ char more, t = char :: more ∧ (char = '-' ∨ char.isDigit = true) := by
  obtain ⟨hsign, hinteger, _, _⟩ := h
  cases hsign with
  | minus => exact ⟨'-', _, rfl, .inl rfl⟩
  | none =>
    cases hinteger with
    | zero => exact ⟨'0', _, rfl, .inr rfl⟩
    | nonzero hfirst => exact ⟨_, _, rfl, .inr hfirst⟩

/-- A value does not start with a delimiter. -/
theorem IsValue.exists_cons {value : Value} (h : IsValue t value) :
    ∃ char more, t = char :: more ∧ char ∉ delimiters := by
  cases h with
  | null => exact ⟨'n', _, rfl, by decide⟩
  | boolTrue => exact ⟨'t', _, rfl, by decide⟩
  | boolFalse => exact ⟨'f', _, rfl, by decide⟩
  | number h =>
    obtain ⟨char, more, rfl, hchar⟩ := h.exists_cons
    refine ⟨char, more, rfl, fun hmem => ?_⟩
    have all : ∀ char ∈ delimiters, char ≠ '-' ∧ char.isDigit = false :=
      forall_mem_of_all (by decide)
    rcases hchar with rfl | hdigit
    · exact (all _ hmem).1 rfl
    · rw [(all char hmem).2] at hdigit
      cases hdigit
  | string h =>
    obtain ⟨h⟩ := h
    exact ⟨'"', _, rfl, by decide⟩
  | emptyArray => exact ⟨'[', _, rfl, by decide⟩
  | array => exact ⟨'[', _, rfl, by decide⟩
  | emptyObject => exact ⟨'\x7b', _, rfl, by decide⟩
  | object => exact ⟨'\x7b', _, rfl, by decide⟩

/-- A value does not start with white space. -/
theorem IsValue.noSpace {value : Value} (h : IsValue t value) (rest : List Char) :
    NoSpace (t ++ rest) := by
  obtain ⟨char, more, rfl, hchar⟩ := h.exists_cons
  exact notNext_cons.2 fun hmem => hchar (List.mem_append_left _ hmem)

/-! ## Alternatives -/

/-- An array is a list of values in brackets. -/
theorem array_eq : array = listed "[" "]" value := rfl

/-- An object is a list of members in braces. -/
theorem object_eq : object = map Members.ofList (listed "\x7b" "\x7d" member) := rfl

/-- A member is a key and a value with a colon between them. -/
theorem member_eq : member =
    bind string fun key => chain (spaced ":") (map (fun value => (key, value)) value) := rfl

section

variable {char : Char}

/-- Numbers are tried first. -/
theorem value_accepts_number {number : Number} (h : Json.number.Accepts grammar c number t) :
    value.Accepts grammar c (.number number) t :=
  h.map.choice.choice.choice.choice.choice

/-- Strings are tried where no number starts. -/
theorem value_accepts_string {text : String} (hrest : c.rest = '"' :: rest)
    (h : string.Accepts grammar c text t) : value.Accepts grammar c (.string text) t := by
  have hnumber : (number : Parser Rule Number).Rejects grammar c [] :=
    number_rejects (by rw [hrest, notNext_cons]; decide)
  exact (hnumber.map.choice_accepts h.map).choice.choice.choice.choice

/-- Neither a number nor a string starts here. -/
theorem number_string_reject (hrest : c.rest = char :: rest)
    (hchar : ¬(char = '-' ∨ char.isDigit = true ∨ char = '"')) :
    (choice (map .number number) (map .string string) : Parser Rule Value).Rejects grammar c [] := by
  obtain ⟨hminus, hdigit, hquote⟩ : ¬char = '-' ∧ ¬char.isDigit = true ∧ ¬char = '"' := by
    simpa only [not_or] using hchar
  have hnumber : (number : Parser Rule Number).Rejects grammar c [] :=
    number_rejects (by rw [hrest, notNext_cons]; exact not_or.2 ⟨hminus, hdigit⟩)
  have hstring : (string : Parser Rule String).Rejects grammar c [] :=
    string_rejects (by rwa [hrest, notNext_cons])
  exact hnumber.map.choice_rejects hstring.map

/-- The null value is accepted. -/
theorem value_accepts_null (hrest : c.rest = "null".toList ++ rest) :
    value.Accepts grammar c .null "null".toList := by
  have earlier := number_string_reject hrest (by decide)
  exact (earlier.choice_accepts (literal_accepts hrest).map).choice.choice.choice

/-- Where no `n` comes next there is no null value. -/
theorem null_rejects (hrest : c.rest = char :: rest) (hchar : char ≠ 'n') :
    (literal "null" : Parser Rule String).Rejects grammar c [] :=
  literal_rejects_of_notNext rfl (by rw [hrest, notNext_cons]; exact hchar)

/-- Where its bracket does not come next there is no list. -/
theorem listed_rejects {α : Type} {left right : String} {first : Char} {item : Parser Rule α}
    (hleft : left.toList = [first]) (hrest : c.rest = char :: rest) (hchar : char ≠ first) :
    (listed left right item).Rejects grammar c [] :=
  (literal_rejects_of_notNext hleft (by rw [hrest, notNext_cons]; exact hchar)).bind.bind

/-- Where no bracket comes next there is no array. -/
theorem array_rejects (hrest : c.rest = char :: rest) (hchar : char ≠ '[') : array.Rejects grammar c [] := by
  rw [array_eq]
  exact listed_rejects rfl hrest hchar

/-- Where no brace comes next there is no object. -/
theorem object_rejects (hrest : c.rest = char :: rest) (hchar : char ≠ '\x7b') :
    object.Rejects grammar c [] := by
  rw [object_eq]
  exact (listed_rejects rfl hrest hchar).map

/-- A value that starts with a bracket is the array that is accepted there. -/
theorem value_accepts_array {items : List Value} (hrest : c.rest = '[' :: rest)
    (h : array.Accepts grammar c items t) : value.Accepts grammar c (.array items) t := by
  have earlier := number_string_reject hrest (by decide)
  have hnull := null_rejects hrest (by decide)
  exact ((earlier.choice_rejects hnull.map).choice_accepts (Accepts.call h).map).choice.choice

/-- A value that starts with a brace is the object that is accepted there. -/
theorem value_accepts_object {members : Members} (hrest : c.rest = '\x7b' :: rest)
    (h : object.Accepts grammar c members t) : value.Accepts grammar c (.object members) t := by
  have earlier := number_string_reject hrest (by decide)
  have hnull := null_rejects hrest (by decide)
  have harray := array_rejects hrest (by decide)
  exact (((earlier.choice_rejects hnull.map).choice_rejects (Rejects.call harray).map).choice_accepts
    (Accepts.call h).map).choice

/-- The last alternative is tried where nothing else starts. -/
theorem value_accepts_bool {flag : Bool} (hrest : c.rest = char :: rest) (hchar : char = 't' ∨ char = 'f')
    (h : boolean.Accepts grammar c (.bool flag) t) : value.Accepts grammar c (.bool flag) t := by
  have hother : ¬(char = '-' ∨ char.isDigit = true ∨ char = '"') ∧ char ≠ 'n' ∧ char ≠ '[' ∧
      char ≠ '\x7b' := by
    rcases hchar with rfl | rfl <;> decide
  have earlier := number_string_reject hrest hother.1
  have hnull := null_rejects hrest hother.2.1
  have harray := array_rejects hrest hother.2.2.1
  have hobject := object_rejects hrest hother.2.2.2
  exact (((earlier.choice_rejects hnull.map).choice_rejects (Rejects.call harray).map).choice_rejects
    (Rejects.call hobject).map).choice_accepts h

end

/-! ## Nothing but values is accepted -/

/-- Values behind commas are the further items of an array. -/
theorem isItems_of_repeats {u : List Char} {items : List Value} (h : Repeats (IsFurther IsValue) u items) :
    IsItems u items := by
  induction h with
  | nil => exact .nil
  | cons first _ ih =>
    obtain ⟨hw, hw', hitem⟩ := first
    exact .cons hw hw' hitem ih

/-- Members behind commas are the further members of an object. -/
theorem isMembers_of_repeats {u : List Char} {entries : List (String × Value)}
    (h : Repeats (IsFurther IsMember) u entries) : IsMembers u entries := by
  induction h with
  | nil => exact .nil
  | cons first _ ih =>
    obtain ⟨hw, hw', hentry⟩ := first
    exact .cons hw hw' hentry ih

/-- A member is read if values are from here on, or the parser rejects. -/
theorem decides_member
    (h : ∀ d : TextCursor, d.rest.length ≤ c.rest.length → value.Decides grammar IsValue d) :
    member.Decides grammar IsMember c := by
  rw [member_eq]
  refine decides_string.bind fun t rest key hrest hkey => ?_
  refine (decides_spaced ":").chain fun s rest' _ hrest' hs => ?_
  obtain ⟨w, w', rfl, hw, hw'⟩ := hs
  refine ((h _ ?_).mono fun u value hvalue => ?_).map
  · rw [TextCursor.rest_past hrest', hrest]
    rw [TextCursor.rest_past hrest] at hrest'
    rw [hrest']
    simp only [List.length_append]
    omega
  · exact .mk hkey hw hw' hvalue

/-- Values are decided everywhere, given that they are where less of the text is left. -/
theorem decides_value_of_shorter
    (h : ∀ d : TextCursor, d.rest.length < c.rest.length → value.Decides grammar IsValue d) :
    value.Decides grammar IsValue c := by
  refine Decides.choices ?_
  simp only [List.forall_mem_cons, List.not_mem_nil, false_imp_iff, implies_true, and_true]
  refine ⟨?_, ?_, ?_, ?_, ?_, ?_⟩
  · exact (decides_number.mono fun t number ⟨n, hn, hnumber⟩ => .number hn hnumber).map
  · exact (decides_string.mono fun t text ht => .string ht).map
  · refine ((decides_literal "null").mono ?_).map
    rintro t _ ⟨rfl, -⟩
    exact .null
  · refine (Decides.call (Decides.mono (decides_listed (by simp) h) ?_)).map
    rintro t items (hw | ⟨hw, hitem, hmore, hw'⟩)
    · exact .emptyArray hw
    · exact .array hw hitem (isItems_of_repeats hmore) hw'
  · have members (d : TextCursor) (hd : d.rest.length < c.rest.length) :
        member.Decides grammar IsMember d :=
      decides_member fun e he => h e (Nat.lt_of_le_of_lt he hd)
    refine (Decides.call (Decides.map (Decides.mono (decides_listed (by simp) members) ?_))).map
    rintro t entries (hw | ⟨hw, hentry, hmore, hw'⟩)
    · exact .emptyObject hw
    · exact .object hw hentry (isMembers_of_repeats hmore) hw' (Members.gather_ofList _)
  · refine Decides.choice ((decides_literal "true").mono ?_).map ((decides_literal "false").mono ?_).map
    · rintro t _ ⟨rfl, -⟩
      exact .boolTrue
    · rintro t _ ⟨rfl, -⟩
      exact .boolFalse

/-- The parser for values always comes to an end, and it accepts nothing but values. -/
theorem decides_value (c : TextCursor) : value.Decides grammar IsValue c := by
  induction hlength : c.rest.length using Nat.strongRecOn generalizing c with
  | ind length ih => exact decides_value_of_shorter fun d hd => ih _ (hlength ▸ hd) d rfl

/-- No value starts with a closing bracket. -/
theorem value_rejects_closing {closing : Char} (hrest : c.rest = closing :: rest)
    (hclosing : closing ∈ delimiters) : ∃ consumed, value.Rejects grammar c consumed := by
  refine (decides_value c).resolve_left ?_
  rintro ⟨t, others, v, hrest', hvalue, -⟩
  obtain ⟨char, more, rfl, hchar⟩ := hvalue.exists_cons
  rw [hrest] at hrest'
  obtain ⟨rfl, -⟩ := List.cons.inj hrest'
  exact hchar hclosing

/-! ## Every value is accepted -/

/-- A comma or a closing bracket, with white space before it, delimits. -/
theorem delimited_mark {w : List Char} {mark : Char} (hw : IsSpace w) (hmark : mark ∈ delimiters) :
    Delimited (w ++ mark :: rest) :=
  (delimited_cons hmark).append_space hw

/-- Behind an item there is a comma or the closing bracket, which end it. -/
theorem IsItems.delimited {u w : List Char} {items : List Value} {closing : Char} (h : IsItems u items)
    (hw : IsSpace w) (hclosing : closing ∈ delimiters) : Delimited (u ++ (w ++ closing :: rest)) := by
  cases h with
  | nil => exact delimited_mark hw hclosing
  | cons hw' =>
    simp only [List.append_assoc, List.cons_append]
    exact delimited_mark hw' (by decide)

/-- Behind a member there is a comma or the closing brace, which end it. -/
theorem IsMembers.delimited {u w : List Char} {entries : List (String × Value)} {closing : Char}
    (h : IsMembers u entries) (hw : IsSpace w) (hclosing : closing ∈ delimiters) :
    Delimited (u ++ (w ++ closing :: rest)) := by
  cases h with
  | nil => exact delimited_mark hw hclosing
  | cons hw' =>
    simp only [List.append_assoc, List.cons_append]
    exact delimited_mark hw' (by decide)

/-- A member starts with the quote of its key. -/
theorem IsMember.noSpace {entry : String × Value} (h : IsMember t entry) (rest : List Char) :
    NoSpace (t ++ rest) := by
  obtain ⟨hkey, _, _, _⟩ := h
  obtain ⟨_⟩ := hkey
  exact notNext_cons.2 (by decide)

/-- A closing brace is no member. -/
theorem member_rejects_closing (hrest : c.rest = '\x7d' :: rest) : member.Rejects grammar c [] :=
  (string_rejects (by rw [hrest]; exact notNext_cons.2 (by decide))).bind

mutual

/-- A value is accepted as a whole where a delimiter or nothing follows. -/
theorem value_accepts {t : List Char} {v : Value} (h : IsValue t v) :
    ∀ {c : TextCursor} {rest : List Char}, c.rest = t ++ rest → Delimited rest →
      value.Accepts grammar c v t := by
  cases h with
  | null => exact fun hrest _ => value_accepts_null hrest
  | boolTrue =>
    intro c rest hrest hend
    exact value_accepts_bool hrest (.inl rfl) (literal_accepts hrest).map.choice
  | boolFalse =>
    intro c rest hrest hend
    have htrue : (literal "true" : Parser Rule String).Rejects grammar c [] :=
      literal_rejects_of_notNext rfl (by rw [hrest]; exact notNext_cons.2 (by decide))
    exact value_accepts_bool hrest (.inr rfl) (htrue.map.choice_accepts (literal_accepts hrest).map)
  | number h hnumber =>
    intro c rest hrest hend
    exact value_accepts_number (number_accepts h hnumber hrest hend.endsNumber)
  | string h =>
    intro c rest hrest hend
    obtain ⟨hbody⟩ := h
    exact value_accepts_string hrest (string_accepts (.mk hbody) hrest)
  | @emptyArray w hw =>
    intro c rest hrest hend
    have hpast : (c.past ('[' :: w)).rest = ']' :: rest :=
      TextCursor.rest_past (by simpa using hrest)
    obtain ⟨consumed, rejected⟩ := value_rejects_closing hpast (by decide)
    exact value_accepts_array hrest (listed_accepts_nil rfl rfl (by decide) hw hrest rejected)
  | @array w t u w' item items hw hitem hitems hw' =>
    intro c rest hrest hend
    have first {d : TextCursor} (hfirst : d.rest = t ++ (u ++ (w' ++ ']' :: rest))) :=
      value_accepts hitem hfirst (hitems.delimited hw' (by decide))
    have more {d : TextCursor} (hmore : d.rest = u ++ (w' ++ ']' :: rest)) :=
      items_accepts hitems hw' hmore [item]
    exact value_accepts_array hrest
      (listed_accepts_cons rfl rfl (by decide) hw hw' hrest hitem.noSpace first more)
  | @emptyObject w hw =>
    intro c rest hrest hend
    have hpast : (c.past ('\x7b' :: w)).rest = '\x7d' :: rest :=
      TextCursor.rest_past (by simpa using hrest)
    have members : (listed "\x7b" "\x7d" member).Accepts grammar c [] ('\x7b' :: w ++ ['\x7d']) :=
      listed_accepts_nil rfl rfl (by decide) hw hrest (member_rejects_closing hpast)
    exact value_accepts_object hrest members.map
  | @object w t u w' entry entries members hw hentry hentries hw' hmembers =>
    intro c rest hrest hend
    have first {d : TextCursor} (hfirst : d.rest = t ++ (u ++ (w' ++ '\x7d' :: rest))) :=
      member_accepts hentry hfirst (hentries.delimited hw' (by decide))
    have more {d : TextCursor} (hmore : d.rest = u ++ (w' ++ '\x7d' :: rest)) :=
      members_accepts hentries hw' hmore [entry]
    obtain rfl := hmembers.eq_ofList
    exact value_accepts_object hrest
      (listed_accepts_cons rfl rfl (by decide) hw hw' hrest hentry.noSpace first more).map
  termination_by t.length
  decreasing_by all_goals simp; omega

/-- All further items are accepted, up to the closing bracket. -/
theorem items_accepts {u : List Char} {items : List Value} (h : IsItems u items) :
    ∀ {c : TextCursor} {w rest : List Char}, IsSpace w → c.rest = u ++ (w ++ ']' :: rest) →
      ∀ newestFirst : List Value,
        (furtherItems value newestFirst).Accepts grammar c (newestFirst.reverse ++ items) u := by
  cases h with
  | nil =>
    intro c w rest hw hrest newestFirst
    rw [List.append_nil]
    exact furtherItems_accepts_nil hw hrest (by decide) (by decide)
  | @cons v v' t u item items hv hv' hitem hitems =>
    intro c w rest hw hrest newestFirst
    have first {d : TextCursor} (hfirst : d.rest = t ++ (u ++ (w ++ ']' :: rest))) :=
      value_accepts hitem hfirst (hitems.delimited hw (by decide))
    have more {d : TextCursor} (hmore : d.rest = u ++ (w ++ ']' :: rest)) :=
      items_accepts hitems hw hmore (item :: newestFirst)
    simp only [List.reverse_cons, List.append_assoc newestFirst.reverse, List.singleton_append] at more
    exact furtherItems_accepts_cons hv hv' hrest hitem.noSpace first more
  termination_by u.length
  decreasing_by all_goals simp; omega

/-- A member is accepted as a whole where a delimiter follows. -/
theorem member_accepts {t : List Char} {entry : String × Value} (h : IsMember t entry) :
    ∀ {c : TextCursor} {rest : List Char}, c.rest = t ++ rest → Delimited rest →
      member.Accepts grammar c entry t := by
  cases h with
  | @mk t w w' u key v hkey hw hw' hvalue =>
    intro c rest hrest hend
    have hfirst : c.rest = t ++ (w ++ (':' :: w') ++ (u ++ rest)) := by simpa using hrest
    have hcolon := TextCursor.rest_past hfirst
    have colon : (spaced ":").Accepts grammar (c.past t) w' (w ++ (':' :: w')) :=
      spaced_accepts rfl (by decide) hw hw' hcolon (hvalue.noSpace _)
    have last := value_accepts hvalue (TextCursor.rest_past hcolon) hend
    exact (string_accepts hkey hfirst).bind (colon.chain last.map)
  termination_by t.length
  decreasing_by all_goals simp; omega

/-- All further members are accepted, up to the closing brace. -/
theorem members_accepts {u : List Char} {entries : List (String × Value)} (h : IsMembers u entries) :
    ∀ {c : TextCursor} {w rest : List Char}, IsSpace w → c.rest = u ++ (w ++ '\x7d' :: rest) →
      ∀ newestFirst : List (String × Value),
        (furtherItems member newestFirst).Accepts grammar c (newestFirst.reverse ++ entries) u := by
  cases h with
  | nil =>
    intro c w rest hw hrest newestFirst
    rw [List.append_nil]
    exact furtherItems_accepts_nil hw hrest (by decide) (by decide)
  | @cons v v' t u entry entries hv hv' hentry hentries =>
    intro c w rest hw hrest newestFirst
    have first {d : TextCursor} (hfirst : d.rest = t ++ (u ++ (w ++ '\x7d' :: rest))) :=
      member_accepts hentry hfirst (hentries.delimited hw (by decide))
    have more {d : TextCursor} (hmore : d.rest = u ++ (w ++ '\x7d' :: rest)) :=
      members_accepts hentries hw hmore (entry :: newestFirst)
    simp only [List.reverse_cons, List.append_assoc newestFirst.reverse, List.singleton_append] at more
    exact furtherItems_accepts_cons hv hv' hrest hentry.noSpace first more
  termination_by u.length
  decreasing_by all_goals simp; omega

end

end Parsing.Json
