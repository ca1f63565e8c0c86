import Parsing.Proofs.Parser.Matching

/-!
# What primitives and combinators accept

The rules for accepting and rejecting, for parsers of single characters and for the combinators that are
built from the operations. A repetition accepts what consists of parts that its parser accepts, up to a
place where that parser rejects.
-/

namespace Parsing

/-- A text that consists of parts, one for each value. -/
inductive Repeats {α : Type} (part : List Char → α → Prop) : List Char → List α → Prop
  | nil : Repeats part [] []
  | cons {t u : List Char} {value : α} {values : List α} (first : part t value)
      (rest : Repeats part u values) : Repeats part (t ++ u) (value :: values)

/-- Parts of another kind are parts if each of them is. -/
theorem Repeats.mono {α : Type} {part other : List Char → α → Prop}
    (h : ∀ t value, part t value → other t value) {t : List Char} {values : List α}
    (repeats : Repeats part t values) : Repeats other t values := by
  induction repeats with
  | nil => exact .nil
  | cons first rest ih => exact .cons (h _ _ first) ih

/-- A text consists of its characters. -/
theorem repeats_chars {p : Char → Prop} {t : List Char} (h : ∀ char ∈ t, p char) :
    Repeats (fun s char => s = [char] ∧ p char) t t := by
  induction t with
  | nil => exact .nil
  | cons char t ih =>
    have first : [char] = [char] ∧ p char := ⟨rfl, h char (by simp)⟩
    exact .cons first (ih fun other hother => h other (by simp [hother]))

/-- Parts that are characters are the characters of the text. -/
theorem Repeats.of_chars {p : Char → Prop} {t values : List Char}
    (h : Repeats (fun s char => s = [char] ∧ p char) t values) : t = values ∧ ∀ char ∈ values, p char := by
  induction h with
  | nil => simp
  | cons first rest ih =>
    obtain ⟨rfl, hp⟩ := first
    obtain ⟨rfl, hrest⟩ := ih
    simp_all

/-- A property of all characters of a list is checked by going through the list. -/
theorem forall_mem_of_all {p : Char → Prop} [DecidablePred p] {chars : List Char}
    (h : chars.all (fun char => decide (p char)) = true) : ∀ char ∈ chars, p char :=
  fun char hchar => of_decide_eq_true (List.all_eq_true.1 h char hchar)

/-- The next character, if there is one, is not of this kind. -/
def NotNext (p : Char → Prop) (rest : List Char) : Prop := ∀ char, rest.head? = some char → ¬p char

/-- Nothing comes next at the end. -/
@[simp] theorem notNext_nil (p : Char → Prop) : NotNext p [] := by
  intro char h
  cases h

/-- What comes next is the first character. -/
@[simp] theorem notNext_cons {p : Char → Prop} {char : Char} {rest : List Char} :
    NotNext p (char :: rest) ↔ ¬p char := by
  simp [NotNext]

/-- If no character of a kind comes next then none of a narrower kind does. -/
theorem NotNext.mono {p q : Char → Prop} {rest : List Char} (h : NotNext p rest)
    (hmono : ∀ char, q char → p char) : NotNext q rest :=
  fun char hchar hq => h char hchar (hmono char hq)

namespace Parser

variable {R : Type → Type} {α β γ : Type} {grammar : Grammar R} {c : TextCursor}
  {t u rest : List Char}

/-! ## Single characters -/

/-- To succeed at once accepts nothing. -/
theorem unit_accepts (value : α) (c : TextCursor) : (unit value).Accepts grammar c value [] :=
  ⟨_, yields_scan_iff.2 rfl⟩

/-- To fail at once rejects without consuming anything. -/
theorem fail_rejects (message : String) (c : TextCursor) :
    (fail message : Parser R α).Rejects grammar c [] :=
  ⟨_, yields_scan_iff.2 rfl⟩

/-- Each expected character is consumed, or else found out. -/
theorem run_matchChars_cons (expected : String) (start : Nat) (char : Char) (chars : List Char)
    (c : TextCursor) :
    (matchChars expected start (char :: chars)).run c =
      if c.peek = some char then (matchChars expected start chars).run c.read.2
      else (.ok (.fail (literalMessage expected c.peek) start), c) := by
  change Scan.run (if c.peek = some char then _ else _) c = _
  split <;> rfl

/-- Characters that are there are matched one after the other. -/
theorem run_matchChars (expected : String) (start : Nat) {chars : List Char}
    (h : c.rest = chars ++ rest) :
    ∃ position, (matchChars expected start chars).run c =
      (.ok (.success expected position), c.past chars) := by
  induction chars generalizing c with
  | nil => exact ⟨_, rfl⟩
  | cons char chars ih =>
    have found : c.peek = some char := by rw [TextCursor.peek, h]; rfl
    obtain ⟨position, ran⟩ := ih (c := c.past [char]) (TextCursor.rest_past h)
    refine ⟨position, ?_⟩
    rw [run_matchChars_cons, if_pos found, TextCursor.read_of_rest h, ran, ← TextCursor.past_append]
    rfl

/-- A character that is not there is found out. -/
theorem run_matchChars_of_not_prefix (expected : String) (start : Nat) {chars : List Char}
    (h : ¬chars <+: c.rest) :
    ∃ failures token, (matchChars expected start chars).run c =
      (.ok (.failure failures), c.past token) := by
  induction chars generalizing c with
  | nil => exact absurd List.nil_prefix h
  | cons char chars ih =>
    by_cases found : c.peek = some char
    · obtain ⟨rest, hrest⟩ := List.head?_eq_some_iff.1 found
      have hpast : (c.past [char]).rest = rest := TextCursor.rest_past hrest
      rw [hrest, List.prefix_cons_inj, ← hpast] at h
      obtain ⟨failures, token, ran⟩ := ih h
      refine ⟨failures, [char] ++ token, ?_⟩
      rw [run_matchChars_cons, if_pos found, TextCursor.read_of_rest hrest, ran,
        ← TextCursor.past_append]
    · rw [run_matchChars_cons, if_neg found]
      exact ⟨_, [], rfl⟩

/-- An exact match accepts its text. -/
theorem literal_accepts {text : String} (h : c.rest = text.toList ++ rest) :
    (literal text).Accepts grammar c text text.toList := by
  obtain ⟨position, ran⟩ := run_matchChars text c.position h
  have matched : (scan (.position fun start => matchChars text start text.toList)).Accepts grammar c
      text text.toList :=
    ⟨position, yields_scan_iff.2 (by rw [Scan.run, TextCursor.cursor_position, ran])⟩
  exact matched.attempt

/-- An exact match rejects where its text does not come next. -/
theorem literal_rejects {text : String} (h : ¬text.toList <+: c.rest) :
    (literal text).Rejects grammar c [] := by
  obtain ⟨failures, token, ran⟩ := run_matchChars_of_not_prefix text c.position h
  have failed : (scan (.position fun start => matchChars text start text.toList)).Rejects grammar c
      token :=
    ⟨failures, yields_scan_iff.2 (by rw [Scan.run, TextCursor.cursor_position, ran])⟩
  exact failed.attempt

/-- A literal rejects where its first character does not come next. -/
theorem literal_rejects_of_notNext {text : String} {char : Char} {more : List Char}
    (htext : text.toList = char :: more) (h : NotNext (· = char) c.rest) :
    (literal text).Rejects grammar c [] := by
  refine literal_rejects ?_
  rw [htext]
  rintro ⟨rest, hrest⟩
  exact h char (by rw [← hrest]; rfl) rfl

/-- A test accepts a character that passes it. -/
theorem satisfy_accepts {accepts : Char → Bool} {message : Option Char → String} {char : Char}
    (h : c.rest = char :: rest) (accepted : accepts char = true) :
    (satisfy accepts message).Accepts grammar c char [char] := by
  have found : c.peek = some char := by rw [TextCursor.peek, h]; rfl
  refine ⟨(c.past [char]).position, yields_scan_iff.2 ?_⟩
  simp [Scan.run, Scan.advance, Scan.succeed, found, accepted, TextCursor.read_of_rest h]

/-- A test rejects where no character that passes it comes next. -/
theorem satisfy_rejects {accepts : Char → Bool} {message : Option Char → String}
    (h : ∀ char, c.rest.head? = some char → accepts char = false) :
    (satisfy accepts message).Rejects grammar c [] := by
  refine ⟨.single ⟨message c.peek, c.position⟩, yields_scan_iff.2 ?_⟩
  cases found : c.peek with
  | none => simp [Scan.run, found, Result.fail]
  | some char => simp [Scan.run, found, h char found, Result.fail]

/-- One of some characters is accepted. -/
theorem oneOf_accepts {chars : String} {char : Char} (h : c.rest = char :: rest)
    (hchar : char ∈ chars.toList) : (oneOf chars).Accepts grammar c char [char] :=
  satisfy_accepts h (by simpa using hchar)

/-- Where none of some characters comes next they are rejected. -/
theorem oneOf_rejects {chars : String} (h : NotNext (· ∈ chars.toList) c.rest) :
    (oneOf chars).Rejects grammar c [] :=
  satisfy_rejects fun char hchar => by simpa using h char hchar

/-- The end is accepted where nothing is left. -/
theorem endOfFile_accepts (h : c.rest = []) : endOfFile.Accepts grammar c () [] := by
  refine ⟨c.position, yields_scan_iff.2 ?_⟩
  simp [Scan.run, TextCursor.peek, h]

/-- The end is rejected where something is left. -/
theorem endOfFile_rejects (h : c.rest ≠ []) : endOfFile.Rejects grammar c [] := by
  obtain ⟨char, rest, hrest⟩ := List.exists_cons_of_ne_nil h
  refine ⟨.single ⟨s!"Expected end-of-file but found `{char}`", c.position⟩, yields_scan_iff.2 ?_⟩
  simp [Scan.run, TextCursor.peek, hrest, Result.fail]

/-! ## Sequences and alternatives -/

section

variable {first : Parser R α} {second : Parser R β} {parser : Parser R α} {value : α} {other : β}

/-- A sequence with the second value accepts what its parts accept. -/
theorem Accepts.chain (h : first.Accepts grammar c value t)
    (h' : second.Accepts grammar (c.past t) other u) :
    (chain first second).Accepts grammar c other (t ++ u) :=
  h.bind h'

/-- A sequence with the first value accepts what its parts accept. -/
theorem Accepts.left (h : first.Accepts grammar c value t)
    (h' : second.Accepts grammar (c.past t) other u) :
    (left first second).Accepts grammar c value (t ++ u) :=
  h.bind h'.map

/-- A sequence with both values accepts what its parts accept. -/
theorem Accepts.pair (h : first.Accepts grammar c value t)
    (h' : second.Accepts grammar (c.past t) other u) :
    (pair first second).Accepts grammar c (value, other) (t ++ u) :=
  h.bind h'.map

/-- What is there is accepted though it may be missing. -/
theorem Accepts.optional (h : parser.Accepts grammar c value t) :
    (optional parser).Accepts grammar c (some value) t :=
  h.map.choice

/-- What is rejected without consuming anything may be missing. -/
theorem Rejects.optional (h : parser.Rejects grammar c []) :
    (optional parser).Accepts grammar c none [] :=
  h.map.choice_accepts (unit_accepts none c)

/-- What is there is accepted though it may be missing and gone back from. -/
theorem Accepts.tryItem (h : parser.Accepts grammar c value t) :
    (tryItem parser).Accepts grammar c (some value) t :=
  h.map.attempt.choice

/-- What is rejected may be missing, whatever it has consumed. -/
theorem Rejects.tryItem (h : parser.Rejects grammar c t) :
    (tryItem parser).Accepts grammar c none [] :=
  h.map.attempt.choice_accepts (unit_accepts none c)

/-- Alternatives that come later do not matter. -/
theorem Accepts.foldl_choice {after : List (Parser R α)} (h : parser.Accepts grammar c value t) :
    (after.foldl Parser.choice parser).Accepts grammar c value t := by
  induction after generalizing parser with
  | nil => exact h
  | cons next after ih => exact ih h.choice

/-- All alternatives are tried if none of them consumes anything. -/
theorem Rejects.foldl_choice {after : List (Parser R α)} (h : parser.Rejects grammar c [])
    (rejected : ∀ later ∈ after, later.Rejects grammar c []) :
    (after.foldl Parser.choice parser).Rejects grammar c [] := by
  induction after generalizing parser with
  | nil => exact h
  | cons next after ih =>
    refine ih (h.choice_rejects (rejected next (by simp))) fun later hlater => ?_
    exact rejected later (by simp [hlater])

/-- An alternative is reached if the ones before it reject without consuming anything. -/
theorem Accepts.choices {before after : List (Parser R α)}
    (rejected : ∀ earlier ∈ before, earlier.Rejects grammar c [])
    (h : parser.Accepts grammar c value t) :
    (choices (before ++ parser :: after)).Accepts grammar c value t := by
  cases before with
  | nil => exact h.foldl_choice
  | cons first before =>
    have reached : (before.foldl Parser.choice first).Rejects grammar c [] :=
      (rejected first (by simp)).foldl_choice fun later hlater => rejected later (by simp [hlater])
    rw [List.cons_append, Parser.choices, List.foldl_append]
    exact (reached.choice_accepts h).foldl_choice

end

/-! ## Repetitions -/

/-- A repetition accepts all parts if its item yields a value for each of them, and nothing behind. -/
theorem collect_accepts {item : Parser R (Option α)} {part : List Char → α → Prop}
    {values newestFirst : List α} (h : Repeats part t values)
    (hitem : ∀ d s rest value, d.rest = s ++ rest → part s value →
      s ≠ [] ∧ item.Accepts grammar d (some value) s)
    (hrest : c.rest = t ++ rest) (hend : ∀ d, d.rest = rest → item.Accepts grammar d none u) :
    (collect item newestFirst).Accepts grammar c (newestFirst.reverse ++ values) (t ++ u) := by
  induction h generalizing c newestFirst with
  | nil => simpa using (hend c hrest).collect_none
  | @cons s t value values first repeats ih =>
    rw [List.append_assoc] at hrest ⊢
    obtain ⟨consumed, accepted⟩ := hitem c s _ value hrest first
    have others : (collect item (value :: newestFirst)).Accepts grammar (c.past s) _ _ :=
      ih (TextCursor.rest_past hrest)
    rw [List.reverse_cons, List.append_assoc, List.singleton_append] at others
    exact accepted.collect_some consumed others

/-- Characters of a kind are repeated as long as they last. -/
theorem collect_oneOf_accepts {chars : String} {newestFirst : List Char}
    (h : ∀ char ∈ t, char ∈ chars.toList) (hrest : c.rest = t ++ rest)
    (hend : NotNext (· ∈ chars.toList) rest) :
    (collect (tryItem (oneOf chars)) newestFirst).Accepts grammar c (newestFirst.reverse ++ t) t := by
  have item (d : TextCursor) (s others : List Char) (char : Char) (hd : d.rest = s ++ others)
      (hs : s = [char] ∧ char ∈ chars.toList) :
      s ≠ [] ∧ (tryItem (oneOf chars)).Accepts grammar d (some char) s := by
    obtain ⟨rfl, hchar⟩ := hs
    exact ⟨by simp, (oneOf_accepts hd hchar).tryItem⟩
  have last (d : TextCursor) (hd : d.rest = rest) : (tryItem (oneOf chars)).Accepts grammar d none [] :=
    (oneOf_rejects (by rwa [hd])).tryItem
  have accepted : (collect (tryItem (oneOf chars)) newestFirst).Accepts grammar c
      (newestFirst.reverse ++ t) (t ++ []) := collect_accepts (repeats_chars h) item hrest last
  rwa [List.append_nil] at accepted

/-- Exactly as many parts as wanted. -/
theorem repeatAfter_accepts {parser : Parser R α} {part : List Char → α → Prop}
    {values newestFirst : List α} (h : Repeats part t values)
    (hpart : ∀ d s rest value, d.rest = s ++ rest → part s value → parser.Accepts grammar d value s)
    (hrest : c.rest = t ++ rest) :
    (repeatAfter parser newestFirst values.length).Accepts grammar c (newestFirst.reverse ++ values) t := by
  induction h generalizing c newestFirst with
  | nil =>
    rw [List.append_nil]
    exact unit_accepts newestFirst.reverse c
  | @cons s t value values first repeats ih =>
    rw [List.append_assoc] at hrest
    have others : (repeatAfter parser (value :: newestFirst) values.length).Accepts grammar (c.past s)
        _ _ := ih (TextCursor.rest_past hrest)
    rw [List.reverse_cons, List.append_assoc, List.singleton_append] at others
    exact (hpart c s _ value hrest first).bind others

end Parser

end Parsing
