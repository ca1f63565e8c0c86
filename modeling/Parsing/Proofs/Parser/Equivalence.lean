import Parsing.Cursor.Text
import Parsing.Parser.Combinator
import Parsing.Proofs.Machine.Meaning

/-!
# Parsers that cannot be told apart

Two parsers are equivalent if nothing that can be observed of the runs of one differs from what can be
observed of the runs of the other. Sequences with `bind` and `unit` obey the laws of monads up to equivalence,
and `map` obeys the laws of functors. Both hold for all parsers: for those that fail after they have consumed
something, that go back, that never end and that are stopped.

A part of a parser can be replaced by an equivalent one, as the meaning of an operation is determined by the
meanings of its parts.
-/

namespace Parsing.Parser

variable {R : Type → Type} {S : Type} [Cursor S] {α β γ : Type}

namespace Meaning

omit [Cursor S]

variable (m : Meaning S α)

/-- To start with a value is to go on with it. -/
theorem unit_bind (value : α) (next : α → Meaning S β) :
    (unit value : Meaning S α).bind next = next value := by
  funext c o
  apply propext
  constructor
  · rintro ⟨middle, rfl, rest⟩
    exact rest
  · intro rest
    exact ⟨_, rfl, rest⟩

/-- To go on by succeeding with the value changes nothing. -/
theorem bind_unit : m.bind unit = m := by
  funext c o
  apply propext
  constructor
  · rintro ⟨middle, part, rest⟩
    rcases middle with ⟨d, failures | value⟩ | _ <;> exact rest ▸ part
  · intro part
    refine ⟨o, part, ?_⟩
    rcases o with ⟨d, failures | value⟩ | _ <;> rfl

/-- It does not matter how sequences are grouped. -/
theorem bind_assoc (next : α → Meaning S β) (last : β → Meaning S γ) :
    (m.bind next).bind last = m.bind fun value => (next value).bind last := by
  funext c o
  apply propext
  constructor
  · rintro ⟨middle, ⟨first, part, rest⟩, final⟩
    refine ⟨first, part, ?_⟩
    rcases first with ⟨d, failures | value⟩ | _
    · cases rest
      exact final
    · exact ⟨middle, rest, final⟩
    · cases rest
      exact final
  · rintro ⟨first, part, rest⟩
    rcases first with ⟨d, failures | value⟩ | _
    · exact ⟨_, ⟨_, part, rfl⟩, rest⟩
    · obtain ⟨middle, second, final⟩ := rest
      exact ⟨middle, ⟨_, part, second⟩, final⟩
    · exact ⟨_, ⟨_, part, rfl⟩, rest⟩

/-- To change the value is to go on with the changed value. -/
theorem map_eq_bind (f : α → β) : m.map f = m.bind fun value => unit (f value) := by
  funext c o
  apply propext
  apply exists_congr
  intro middle
  rcases middle with ⟨d, failures | value⟩ | _ <;> rfl

/-- To leave the value as it is changes nothing. -/
theorem map_id : m.map id = m := by
  rw [map_eq_bind]
  exact m.bind_unit

/-- Two changes of the value are one. -/
theorem map_map (f : α → β) (g : β → γ) : (m.map f).map g = m.map (g ∘ f) := by
  rw [map_eq_bind, map_eq_bind, map_eq_bind, bind_assoc]
  congr 1
  funext value
  rw [unit_bind]
  rfl

/-- A change of the value at the end is a change of the value of what one goes on with. -/
theorem map_bind (m : Meaning S α) (next : α → Meaning S β) (f : β → γ) :
    (m.bind next).map f = m.bind fun value => (next value).map f := by
  simp only [map_eq_bind, bind_assoc]

/-- To go on with a changed value. -/
theorem bind_map (m : Meaning S α) (f : α → β) (next : β → Meaning S γ) :
    (m.map f).bind next = m.bind fun value => next (f value) := by
  simp only [map_eq_bind, bind_assoc, unit_bind]

end Meaning

/-- Nothing that can be observed tells the runs of two parsers apart, whatever the cursor is. -/
def Equivalent (grammar : Grammar R) (S : Type) [Cursor S] (first second : Parser R α) : Prop :=
  ∀ (c : S) (o : Observed S α), first.meaning grammar c o ↔ second.meaning grammar c o

variable {grammar : Grammar R}

/-- Equivalent parsers mean the same. -/
theorem equivalent_iff {first second : Parser R α} :
    Equivalent grammar S first second ↔
      first.meaning (S := S) grammar = second.meaning grammar := by
  constructor
  · intro h
    funext c o
    exact propext (h c o)
  · intro h c o
    rw [h]

variable {first second : Parser R α}

/-- Parts of a sequence can be replaced. -/
theorem Equivalent.bind {next other : α → Parser R β} (h : Equivalent grammar S first second)
    (rest : ∀ value, Equivalent grammar S (next value) (other value)) :
    Equivalent grammar S (Parser.bind first next) (Parser.bind second other) := by
  rw [equivalent_iff] at h ⊢
  rw [meaning_bind, meaning_bind, h]
  congr 1
  funext value
  exact equivalent_iff.1 (rest value)

/-- The parser whose value is changed can be replaced. -/
theorem Equivalent.map (f : α → β) (h : Equivalent grammar S first second) :
    Equivalent grammar S (Parser.map f first) (Parser.map f second) := by
  rw [equivalent_iff] at h ⊢
  rw [meaning_map, meaning_map, h]

/-- Alternatives can be replaced. -/
theorem Equivalent.choice {other another : Parser R α} (h : Equivalent grammar S first second)
    (h' : Equivalent grammar S other another) :
    Equivalent grammar S (Parser.choice first other) (Parser.choice second another) := by
  rw [equivalent_iff] at h h' ⊢
  rw [meaning_choice, meaning_choice, h, h']

/-- The parser that is attempted can be replaced. -/
theorem Equivalent.attempt (h : Equivalent grammar S first second) :
    Equivalent grammar S (Parser.attempt first) (Parser.attempt second) := by
  rw [equivalent_iff] at h ⊢
  rw [meaning_attempt, meaning_attempt, h]

/-- The parser that looks ahead can be replaced. -/
theorem Equivalent.lookAhead (h : Equivalent grammar S first second) :
    Equivalent grammar S (Parser.lookAhead first) (Parser.lookAhead second) := by
  rw [equivalent_iff] at h ⊢
  rw [meaning_lookAhead, meaning_lookAhead, h]

/-- The parser that is repeated can be replaced. -/
theorem Equivalent.collect {item other : Parser R (Option α)} (h : Equivalent grammar S item other)
    (newestFirst : List α) :
    Equivalent grammar S (Parser.collect item newestFirst) (Parser.collect other newestFirst) := by
  rw [equivalent_iff] at h ⊢
  rw [meaning_collect, meaning_collect, h]

/-- A parser is equivalent to itself. -/
@[refl] theorem Equivalent.refl (parser : Parser R α) : Equivalent grammar S parser parser :=
  fun _ _ => Iff.rfl

/-- Equivalent parsers make equivalent items. -/
theorem Equivalent.tryItem (h : Equivalent grammar S first second) :
    Equivalent grammar S first.tryItem second.tryItem :=
  (h.map some).attempt.choice (.refl _)

/-- Equivalent parsers can be repeated as often as possible. -/
theorem Equivalent.many (h : Equivalent grammar S first second) :
    Equivalent grammar S first.many second.many :=
  h.tryItem.collect []

/-- Equivalent parsers can be repeated at least once. -/
theorem Equivalent.many1 (h : Equivalent grammar S first second) :
    Equivalent grammar S first.many1 second.many1 :=
  h.bind fun value => h.tryItem.collect [value]

/-- Equivalent parsers can be repeated with equivalent separators. -/
theorem Equivalent.separatedBy {separator other : Parser R β} (h : Equivalent grammar S first second)
    (h' : Equivalent grammar S separator other) :
    Equivalent grammar S (first.separatedBy separator) (second.separatedBy other) := by
  apply h.tryItem.bind
  intro found
  cases found with
  | none => exact .refl _
  | some value => exact (h'.bind fun _ => h).tryItem.collect [value]

/-- Equivalent parsers can be repeated up to equivalent delimiters. -/
theorem Equivalent.manyTill {delimiter other : Parser R β} (h : Equivalent grammar S first second)
    (h' : Equivalent grammar S delimiter other) :
    Equivalent grammar S (first.manyTill delimiter) (second.manyTill other) :=
  ((h'.map _).choice (h.map some)).collect []

/-- Equivalent parsers can be repeated behind values from before. -/
theorem Equivalent.repeatAfter (h : Equivalent grammar S first second) (newestFirst : List α)
    (count : Nat) :
    Equivalent grammar S (first.repeatAfter newestFirst count) (second.repeatAfter newestFirst count) := by
  induction count generalizing newestFirst with
  | zero => exact .refl _
  | succ count ih => exact h.bind fun value => ih (value :: newestFirst)

/-- Equivalent parsers can be repeated a number of times, with the same room. -/
theorem Equivalent.replicate (h : Equivalent grammar S first second) (size count : Nat) :
    Equivalent grammar S (first.replicate size count) (second.replicate size count) := by
  rcases Nat.lt_or_ge maxRoom (count * size) with lacks | fits
  · rw [Parser.replicate, Parser.replicate, withRoom_of_lt lacks, withRoom_of_lt lacks]
  · rw [Parser.replicate, Parser.replicate, withRoom_of_le fits, withRoom_of_le fits]
    exact h.repeatAfter [] count

/-- Sequences obey the laws of monads and changes of values those of functors, up to equivalence, and
equivalent parsers can replace each other as parts of sequences, changes of the value, alternatives, attempts,
look-aheads and repetitions of all kinds. -/
theorem lawful_and_replaceable (grammar : Grammar R) (S : Type) [Cursor S] (α β γ : Type) :
    (∀ (value : α) (next : α → Parser R β),
      Equivalent grammar S (bind (unit value) next) (next value)) ∧
    (∀ parser : Parser R α, Equivalent grammar S (bind parser unit) parser) ∧
    (∀ (parser : Parser R α) (next : α → Parser R β) (last : β → Parser R γ),
      Equivalent grammar S (bind (bind parser next) last)
        (bind parser fun value => bind (next value) last)) ∧
    (∀ (f : α → β) (parser : Parser R α),
      Equivalent grammar S (map f parser) (bind parser fun value => unit (f value))) ∧
    (∀ parser : Parser R α, Equivalent grammar S (map id parser) parser) ∧
    (∀ (f : α → β) (g : β → γ) (parser : Parser R α),
      Equivalent grammar S (map g (map f parser)) (map (g ∘ f) parser)) ∧
    (∀ first second : Parser R α, Equivalent grammar S first second →
      (∀ next other : α → Parser R β, (∀ value, Equivalent grammar S (next value) (other value)) →
        Equivalent grammar S (bind first next) (bind second other)) ∧
      (∀ f : α → β, Equivalent grammar S (map f first) (map f second)) ∧
      (∀ third fourth : Parser R α, Equivalent grammar S third fourth →
        Equivalent grammar S (choice first third) (choice second fourth)) ∧
      Equivalent grammar S (attempt first) (attempt second) ∧
      Equivalent grammar S (lookAhead first) (lookAhead second) ∧
      Equivalent grammar S first.many second.many ∧
      Equivalent grammar S first.many1 second.many1 ∧
      (∀ third fourth : Parser R β, Equivalent grammar S third fourth →
        Equivalent grammar S (first.separatedBy third) (second.separatedBy fourth) ∧
        Equivalent grammar S (first.manyTill third) (second.manyTill fourth)) ∧
      ∀ size count, Equivalent grammar S (first.replicate size count) (second.replicate size count)) := by
  refine ⟨?_, ?_, ?_, ?_, ?_, ?_, ?_⟩
  · intro value next
    rw [equivalent_iff, meaning_bind, meaning_unit, Meaning.unit_bind]
  · intro parser
    rw [equivalent_iff, meaning_bind]
    simp only [meaning_unit]
    exact Meaning.bind_unit _
  · intro parser next last
    simp only [equivalent_iff, meaning_bind]
    exact Meaning.bind_assoc _ _ _
  · intro f parser
    simp only [equivalent_iff, meaning_map, meaning_bind, meaning_unit]
    exact Meaning.map_eq_bind _ f
  · intro parser
    rw [equivalent_iff, meaning_map]
    exact Meaning.map_id _
  · intro f g parser
    simp only [equivalent_iff, meaning_map]
    exact Meaning.map_map _ f g
  · intro first second h
    exact ⟨fun next other rest => h.bind rest, h.map, fun third fourth h' => h.choice h', h.attempt,
      h.lookAhead, h.many, h.many1, fun third fourth h' => ⟨h.separatedBy h', h.manyTill h'⟩,
      h.replicate⟩

/-- A sequence that starts with a value is replaced inside a repetition. -/
theorem lawful_and_replaceable_many :
    Equivalent Grammar.empty TextCursor (bind (unit ()) fun _ => literal "a") (literal "a") ∧
      Equivalent Grammar.empty TextCursor (many (bind (unit ()) fun _ => literal "a"))
        (many (literal "a")) := by
  obtain ⟨starts, -⟩ := lawful_and_replaceable Grammar.empty TextCursor Unit String String
  obtain ⟨-, -, -, -, -, -, replaced⟩ :=
    lawful_and_replaceable Grammar.empty TextCursor String String String
  obtain ⟨-, -, -, -, -, many, -⟩ := replaced _ _ (starts () fun _ => literal "a")
  exact ⟨starts () _, many⟩

end Parsing.Parser
