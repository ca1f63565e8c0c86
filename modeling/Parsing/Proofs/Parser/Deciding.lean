import Parsing.Proofs.Parser.Combinators

/-!
# Deciding a language

A parser decides a language at a place of a text if its run ends there, by accepting a part of the text
that is in the language, with its value, or by rejecting. In particular it is never stopped, and it
accepts nothing else. The rules go with the structure of parsers: behind a part that has been accepted,
it is what the language leaves for the rest that has to be decided.
-/

namespace Parsing.Parser

variable {R : Type → Type} {α β γ : Type} {grammar : Grammar R} {c : TextCursor}

/-- The parser accepts a part that is in the language, or rejects. -/
def Decides (grammar : Grammar R) (parser : Parser R α) (language : List Char → α → Prop)
    (c : TextCursor) : Prop :=
  (∃ token rest value, c.rest = token ++ rest ∧ language token value ∧
    parser.Accepts grammar c value token) ∨
  ∃ token, parser.Rejects grammar c token

section

variable {parser first second : Parser R α} {language larger : List Char → α → Prop}
  {result : List Char → β → Prop}

/-- What decides a language decides every larger one. -/
theorem Decides.mono (h : parser.Decides grammar language c)
    (hmono : ∀ t value, language t value → larger t value) : parser.Decides grammar larger c :=
  h.imp_left fun ⟨t, rest, value, hrest, hlanguage, accepted⟩ =>
    ⟨t, rest, value, hrest, hmono t value hlanguage, accepted⟩

/-- To succeed at once decides a language in which the value is written by nothing. -/
theorem decides_unit {value : α} (h : language [] value) : (unit value).Decides grammar language c :=
  .inl ⟨[], c.rest, value, rfl, h, unit_accepts value c⟩

/-- To fail at once decides every language. -/
theorem decides_fail (message : String) : (fail message).Decides grammar language c :=
  .inr ⟨[], fail_rejects message c⟩

/-- An exact match decides the language of its text alone. -/
theorem decides_literal (text : String) :
    (literal text).Decides grammar (fun t value => t = text.toList ∧ value = text) c := by
  by_cases h : text.toList <+: c.rest
  · obtain ⟨rest, hrest⟩ := h
    exact .inl ⟨_, rest, text, hrest.symm, ⟨rfl, rfl⟩, literal_accepts hrest.symm⟩
  · exact .inr ⟨[], literal_rejects h⟩

/-- A test decides the language of the characters that pass it. -/
theorem decides_satisfy (accepts : Char → Bool) (message : Option Char → String) :
    (satisfy accepts message).Decides grammar
      (fun t char => t = [char] ∧ accepts char = true) c := by
  cases hrest : c.rest with
  | nil => exact .inr ⟨[], satisfy_rejects fun char hchar => by simp [hrest] at hchar⟩
  | cons char rest =>
    cases haccepts : accepts char with
    | true => exact .inl ⟨[char], rest, char, hrest, ⟨rfl, haccepts⟩, satisfy_accepts hrest haccepts⟩
    | false =>
      refine .inr ⟨[], satisfy_rejects fun other hother => ?_⟩
      rw [hrest, List.head?_cons, Option.some.injEq] at hother
      rw [← hother, haccepts]

/-- One of some characters decides the language of these. -/
theorem decides_oneOf (chars : String) :
    (oneOf chars).Decides grammar (fun t char => t = [char] ∧ char ∈ chars.toList) c :=
  (decides_satisfy _ _).mono fun _ _ h => h.imp_right fun h => by simpa using h

/-- A sequence decides a language if behind each word of the first language the second part decides what the
whole leaves for it. -/
theorem Decides.bind {next : α → Parser R β} (h : first.Decides grammar language c)
    (hnext : ∀ t rest value, c.rest = t ++ rest → language t value →
      (next value).Decides grammar (fun u final => result (t ++ u) final) (c.past t)) :
    (Parser.bind first next).Decides grammar result c := by
  rcases h with ⟨t, rest, value, hrest, hlanguage, accepted⟩ | ⟨t, rejected⟩
  · rcases hnext t rest value hrest hlanguage with
      ⟨u, last, final, hlast, hresult, accepted'⟩ | ⟨u, rejected⟩
    · refine .inl ⟨t ++ u, last, final, ?_, hresult, accepted.bind accepted'⟩
      rw [TextCursor.rest_past hrest] at hlast
      rw [hrest, hlast, List.append_assoc]
    · exact .inr ⟨t ++ u, accepted.bind_rejects rejected⟩
  · exact .inr ⟨t, rejected.bind⟩

/-- To change the value decides a language of the changed values. -/
theorem Decides.map {f : α → β} (h : parser.Decides grammar (fun t value => result t (f value)) c) :
    (Parser.map f parser).Decides grammar result c := by
  rcases h with ⟨t, rest, value, hrest, hresult, accepted⟩ | ⟨t, rejected⟩
  · exact .inl ⟨t, rest, f value, hrest, hresult, accepted.map⟩
  · exact .inr ⟨t, rejected.map⟩

/-- A choice decides a language if both alternatives do. -/
theorem Decides.choice (h : first.Decides grammar language c) (h' : second.Decides grammar language c) :
    (Parser.choice first second).Decides grammar language c := by
  rcases h with ⟨t, rest, value, hrest, hlanguage, accepted⟩ | ⟨t, rejected⟩
  · exact .inl ⟨t, rest, value, hrest, hlanguage, accepted.choice⟩
  · by_cases consumed : t = []
    · subst consumed
      rcases h' with ⟨u, rest, value, hrest, hlanguage, accepted⟩ | ⟨u, rejected'⟩
      · exact .inl ⟨u, rest, value, hrest, hlanguage, rejected.choice_accepts accepted⟩
      · exact .inr ⟨u, rejected.choice_rejects rejected'⟩
    · exact .inr ⟨t, rejected.choice_of_consumed consumed⟩

/-- A choice between many decides a language if all alternatives do. -/
theorem Decides.choices {parsers : List (Parser R α)}
    (h : ∀ parser ∈ parsers, parser.Decides grammar language c) :
    (choices parsers).Decides grammar language c := by
  have more : ∀ (after : List (Parser R α)) (first : Parser R α), first.Decides grammar language c →
      (∀ parser ∈ after, parser.Decides grammar language c) →
      (after.foldl Parser.choice first).Decides grammar language c := by
    intro after
    induction after with
    | nil => exact fun _ hfirst _ => hfirst
    | cons next after ih =>
      intro first hfirst hafter
      exact ih _ (hfirst.choice (hafter next (by simp))) fun parser hparser =>
        hafter parser (by simp [hparser])
  cases parsers with
  | nil => exact decides_fail _
  | cons first after => exact more after first (h first (by simp)) fun parser hparser => h parser (by simp [hparser])

/-- An attempt decides what its parser decides. -/
theorem Decides.attempt (h : parser.Decides grammar language c) :
    (Parser.attempt parser).Decides grammar language c := by
  rcases h with ⟨t, rest, value, hrest, hlanguage, accepted⟩ | ⟨t, rejected⟩
  · exact .inl ⟨t, rest, value, hrest, hlanguage, accepted.attempt⟩
  · exact .inr ⟨[], rejected.attempt⟩

/-- A look-ahead decides the language of nothing, with the values that come next. -/
theorem Decides.lookAhead (h : parser.Decides grammar language c) :
    (Parser.lookAhead parser).Decides grammar (fun t value => t = [] ∧ ∃ u, language u value) c := by
  rcases h with ⟨t, rest, value, hrest, hlanguage, accepted⟩ | ⟨t, rejected⟩
  · exact .inl ⟨[], c.rest, value, rfl, ⟨rfl, t, hlanguage⟩, accepted.lookAhead⟩
  · exact .inr ⟨t, rejected.lookAhead⟩

/-- A rule decides what it stands for decides. -/
theorem Decides.call {rule : R α} (h : (grammar α rule).Decides grammar language c) :
    (Parser.call rule).Decides grammar language c := by
  rcases h with ⟨t, rest, value, hrest, hlanguage, accepted⟩ | ⟨t, rejected⟩
  · exact .inl ⟨t, rest, value, hrest, hlanguage, accepted.call⟩
  · exact .inr ⟨t, rejected.call⟩

end

section

variable {parser : Parser R α} {language : List Char → α → Prop}

/-- A sequence decides a language of its second values in the same way. -/
theorem Decides.chain {first : Parser R β} {prefixes : List Char → β → Prop}
    (h : first.Decides grammar prefixes c)
    (hnext : ∀ t rest value, c.rest = t ++ rest → prefixes t value →
      parser.Decides grammar (fun u final => language (t ++ u) final) (c.past t)) :
    (chain first parser).Decides grammar language c :=
  h.bind hnext

/-- A parser and a closing one decide words of both languages, with the value of the first. -/
theorem Decides.left {closing : Parser R β} {suffixes : List Char → β → Prop}
    (h : parser.Decides grammar language c) (h' : ∀ d, closing.Decides grammar suffixes d) :
    (left parser closing).Decides grammar
      (fun s value => ∃ t u other, s = t ++ u ∧ language t value ∧ suffixes u other) c :=
  h.bind fun t _ _ _ ht => ((h' _).mono fun u other hu => ⟨t, u, other, rfl, ht, hu⟩).map

/-- Two parsers decide words of both languages one behind the other, with both values. -/
theorem Decides.pair {second : Parser R β} {others : List Char → β → Prop}
    (h : parser.Decides grammar language c) (h' : ∀ d, second.Decides grammar others d) :
    (pair parser second).Decides grammar
      (fun s values => ∃ t u, s = t ++ u ∧ language t values.1 ∧ others u values.2) c :=
  h.bind fun t _ _ _ ht => ((h' _).mono fun u _ hu => ⟨t, u, rfl, ht, hu⟩).map

/-- Nothing at all is in the language of an optional part. -/
theorem Decides.optional {result : List Char → Option α → Prop}
    (h : parser.Decides grammar (fun t value => result t (some value)) c) (hnone : result [] none) :
    (optional parser).Decides grammar result c :=
  h.map.choice (decides_unit hnone)

/-- An item that may be missing decides a language in which nothing stands for none. -/
theorem Decides.tryItem {result : List Char → Option α → Prop}
    (h : parser.Decides grammar (fun t value => result t (some value)) c) (hnone : result [] none) :
    (tryItem parser).Decides grammar result c :=
  h.map.attempt.choice (decides_unit hnone)

/-- A repetition of an item that never yields a value for nothing decides the texts that consist of
parts with values and then a part without one. -/
theorem Decides.collect {item : Parser R (Option α)} {language : List Char → Option α → Prop}
    (h : ∀ d : TextCursor, d.rest.length ≤ c.rest.length → item.Decides grammar language d)
    (hempty : ∀ value, ¬language [] (some value)) (newestFirst : List α) :
    (Parser.collect item newestFirst).Decides grammar
      (fun s values => ∃ t u more, s = t ++ u ∧ Repeats (fun t value => language t (some value)) t more ∧
        language u none ∧ values = newestFirst.reverse ++ more) c := by
  induction hlength : c.rest.length using Nat.strongRecOn generalizing c newestFirst with
  | ind length ih =>
    rcases h c (Nat.le_refl _) with ⟨t, rest, value, hrest, hlanguage, accepted⟩ | ⟨t, rejected⟩
    · cases value with
      | none =>
        exact .inl ⟨t, rest, newestFirst.reverse, hrest, ⟨[], t, [], rfl, .nil, hlanguage, by simp⟩,
          accepted.collect_none⟩
      | some value =>
        have consumed : t ≠ [] := fun hnil => hempty value (hnil ▸ hlanguage)
        have hpast := TextCursor.rest_past hrest
        have hshorter : (c.past t).rest.length < c.rest.length := by
          rw [hpast, hrest, List.length_append]
          have := List.length_pos_iff.2 consumed
          omega
        rcases ih _ (hlength ▸ hshorter) (fun d hd => h d (Nat.le_trans hd (Nat.le_of_lt hshorter)))
            (value :: newestFirst) rfl with
          ⟨s, last, values, hlast, ⟨t', u, more, hs, hmore, hnone, hvalues⟩, accepted'⟩ | ⟨s, rejected⟩
        · refine .inl ⟨t ++ s, last, values, ?_, ⟨t ++ t', u, value :: more, ?_, .cons hlanguage hmore,
            hnone, ?_⟩, accepted.collect_some consumed accepted'⟩
          · rw [hpast] at hlast
            rw [hrest, hlast, List.append_assoc]
          · rw [hs, List.append_assoc]
          · rw [hvalues, List.reverse_cons, List.append_assoc, List.singleton_append]
        · exact .inr ⟨t ++ s, accepted.collect_rejects consumed rejected⟩
    · exact .inr ⟨t, rejected.collect⟩

/-- Repetitions of a parser that consumes something whenever it accepts. -/
theorem Decides.collect_tryItem
    (h : ∀ d : TextCursor, d.rest.length ≤ c.rest.length → parser.Decides grammar language d)
    (hempty : ∀ value, ¬language [] value) (newestFirst : List α) :
    (Parser.collect (Parser.tryItem parser) newestFirst).Decides grammar
      (fun s values => ∃ more, Repeats language s more ∧ values = newestFirst.reverse ++ more) c := by
  have item (d : TextCursor) (hd : d.rest.length ≤ c.rest.length) :
      (Parser.tryItem parser).Decides grammar
        (fun t value => (value = none ∧ t = []) ∨ ∃ v, value = some v ∧ language t v) d :=
    Decides.tryItem ((h d hd).mono fun t value ht => .inr ⟨value, rfl, ht⟩) (.inl ⟨rfl, rfl⟩)
  refine (Decides.collect item ?_ newestFirst).mono ?_
  · rintro value (⟨⟨⟩, -⟩ | ⟨v, -, hv⟩)
    exact hempty v hv
  · rintro s values ⟨t, u, more, rfl, hmore, ⟨-, rfl⟩ | ⟨v, ⟨⟩, -⟩, rfl⟩
    refine ⟨more, ?_, rfl⟩
    rw [List.append_nil]
    refine hmore.mono fun t value ht => ?_
    rcases ht with ⟨⟨⟩, -⟩ | ⟨v, hv, ht⟩
    obtain rfl := Option.some.inj hv
    exact ht

/-- Exactly as many repetitions as wanted. -/
theorem Decides.repeatAfter (h : ∀ d : TextCursor, parser.Decides grammar language d) (count : Nat)
    (newestFirst : List α) (c : TextCursor) :
    (repeatAfter parser newestFirst count).Decides grammar
      (fun s values => ∃ more, more.length = count ∧ Repeats language s more ∧
        values = newestFirst.reverse ++ more) c := by
  induction count generalizing c newestFirst with
  | zero => exact decides_unit ⟨[], rfl, .nil, by simp⟩
  | succ count ih =>
    refine (h c).bind fun t rest value hrest ht => (ih (value :: newestFirst) (c.past t)).mono ?_
    rintro u values ⟨more, hcount, hmore, rfl⟩
    exact ⟨value :: more, by simp [hcount], .cons ht hmore, by simp⟩

end

end Parsing.Parser
