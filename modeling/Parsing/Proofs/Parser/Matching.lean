import Parsing.Cursor.Text
import Parsing.Parser.Combinator
import Parsing.Proofs.Machine.Outcome

/-!
# Accepting and rejecting

On a text a parser accepts the part that it consumes, with a value, or it rejects, possibly after
consuming some of the text. For each operation there are rules that say what is accepted and rejected
by the whole, given what its parts accept and reject.
-/

namespace Parsing

/-- The cursor behind a part of what is still to be read. -/
def TextCursor.past (c : TextCursor) (token : List Char) : TextCursor :=
  { c with
    rest := c.rest.drop token.length
    offset := token.foldl (fun offset char => offset + char.utf8Size) c.offset
    position := c.position + token.length }

namespace TextCursor

variable {c : TextCursor} {token rest : List Char}

/-- To look at the next character of a text changes nothing. -/
@[simp] theorem cursor_peek (c : TextCursor) : Cursor.peek c = (c.peek, c) := rfl

/-- A text cursor reads as text cursors do. -/
@[simp] theorem cursor_read (c : TextCursor) : Cursor.read c = c.read := rfl

/-- A text cursor knows its position. -/
@[simp] theorem cursor_position (c : TextCursor) : Cursor.position c = c.position := rfl

/-- Behind nothing the cursor is where it was. -/
@[simp] theorem past_nil (c : TextCursor) : c.past [] = c := rfl

/-- Behind two parts the cursor is behind the second, from behind the first. -/
theorem past_append (c : TextCursor) (first second : List Char) :
    c.past (first ++ second) = (c.past first).past second := by
  simp [past, Nat.add_assoc]

/-- Behind a part the others are left to be read. -/
theorem rest_past (h : c.rest = token ++ rest) : (c.past token).rest = rest := by
  simp [past, h]

/-- The next character is read, and the cursor is behind it. -/
theorem read_of_rest {char : Char} (h : c.rest = char :: rest) : c.read = (some char, c.past [char]) := by
  simp [read, past, h]

/-- The cursor has moved exactly if something was consumed. -/
theorem position_past_eq_iff : (c.past token).position = c.position ↔ token = [] := by
  simp [past]

end TextCursor

namespace Parser

variable {R : Type → Type} {α β γ : Type} {grammar : Grammar R} {c : TextCursor} {t u : List Char}

/-- The parser succeeds with a value, having consumed `token`. -/
def Accepts (grammar : Grammar R) (parser : Parser R α) (c : TextCursor) (value : α)
    (token : List Char) : Prop :=
  ∃ position, parser.Yields grammar c (.finished (c.past token) (.success value position))

/-- The parser fails, having consumed `token`. -/
def Rejects (grammar : Grammar R) (parser : Parser R α) (c : TextCursor) (token : List Char) : Prop :=
  ∃ failures, parser.Yields grammar c (.finished (c.past token) (.failure failures))

section

variable {first : Parser R α} {next : α → Parser R β} {value : α} {final : β}

/-- A sequence accepts what its parts accept one after the other. -/
theorem Accepts.bind (h : first.Accepts grammar c value t)
    (rest : (next value).Accepts grammar (c.past t) final u) :
    (Parser.bind first next).Accepts grammar c final (t ++ u) := by
  obtain ⟨position, ran⟩ := h
  obtain ⟨last, ran'⟩ := rest
  rw [← TextCursor.past_append] at ran'
  exact ⟨last, yields_bind_iff.2 ⟨_, ran, ran'⟩⟩

/-- A sequence rejects if its second part does, and then the first part stays consumed. -/
theorem Accepts.bind_rejects (h : first.Accepts grammar c value t)
    (rest : (next value).Rejects grammar (c.past t) u) :
    (Parser.bind first next).Rejects grammar c (t ++ u) := by
  obtain ⟨position, ran⟩ := h
  obtain ⟨failures, ran'⟩ := rest
  rw [← TextCursor.past_append] at ran'
  exact ⟨failures, yields_bind_iff.2 ⟨_, ran, ran'⟩⟩

/-- A sequence rejects if its first part does. -/
theorem Rejects.bind (h : first.Rejects grammar c t) :
    (Parser.bind first next).Rejects grammar c t := by
  obtain ⟨failures, ran⟩ := h
  exact ⟨failures, yields_bind_iff.2 ⟨_, ran, rfl⟩⟩

end

section

variable {parser first second : Parser R α} {value : α}

/-- What is made of the value makes no difference to what is accepted. -/
theorem Accepts.map {f : α → β} (h : parser.Accepts grammar c value t) :
    (Parser.map f parser).Accepts grammar c (f value) t := by
  obtain ⟨position, ran⟩ := h
  exact ⟨position, yields_map_iff.2 ⟨_, ran, rfl⟩⟩

/-- What would be made of a value makes no difference to what is rejected. -/
theorem Rejects.map {f : α → β} (h : parser.Rejects grammar c t) :
    (Parser.map f parser).Rejects grammar c t := by
  obtain ⟨failures, ran⟩ := h
  exact ⟨failures, yields_map_iff.2 ⟨_, ran, rfl⟩⟩

/-- A choice accepts what its first alternative accepts. -/
theorem Accepts.choice (h : first.Accepts grammar c value t) :
    (Parser.choice first second).Accepts grammar c value t := by
  obtain ⟨position, ran⟩ := h
  exact ⟨position, yields_choice_iff.2 ⟨_, ran, rfl⟩⟩

/-- The second alternative is tried when the first has consumed nothing. -/
theorem Rejects.choice_accepts (h : first.Rejects grammar c [])
    (other : second.Accepts grammar c value t) :
    (Parser.choice first second).Accepts grammar c value t := by
  obtain ⟨failures, ran⟩ := h
  obtain ⟨position, ran'⟩ := other
  refine ⟨position, yields_choice_iff.2 ⟨_, ran, ?_⟩⟩
  simp only [TextCursor.past_nil, if_true]
  exact ⟨_, ran', rfl⟩

/-- A choice rejects if its second alternative does, where the first has consumed nothing. -/
theorem Rejects.choice_rejects (h : first.Rejects grammar c []) (other : second.Rejects grammar c t) :
    (Parser.choice first second).Rejects grammar c t := by
  obtain ⟨failures, ran⟩ := h
  obtain ⟨later, ran'⟩ := other
  refine ⟨failures ++ later, yields_choice_iff.2 ⟨_, ran, ?_⟩⟩
  simp only [TextCursor.past_nil, if_true]
  exact ⟨_, ran', rfl⟩

/-- A choice is bound to an alternative that has consumed something. -/
theorem Rejects.choice_of_consumed (h : first.Rejects grammar c t) (consumed : t ≠ []) :
    (Parser.choice first second).Rejects grammar c t := by
  obtain ⟨failures, ran⟩ := h
  refine ⟨failures, yields_choice_iff.2 ⟨_, ran, ?_⟩⟩
  have moved : ¬Cursor.position (c.past t) = Cursor.position c :=
    fun same => consumed (TextCursor.position_past_eq_iff.1 same)
  simp only [if_neg moved]

/-- An attempt accepts what its parser accepts. -/
theorem Accepts.attempt (h : parser.Accepts grammar c value t) :
    (Parser.attempt parser).Accepts grammar c value t := by
  obtain ⟨position, ran⟩ := h
  exact ⟨position, yields_attempt_iff.2 ⟨_, ran, rfl⟩⟩

/-- An attempt that rejects has consumed nothing. -/
theorem Rejects.attempt (h : parser.Rejects grammar c t) :
    (Parser.attempt parser).Rejects grammar c [] := by
  obtain ⟨failures, ran⟩ := h
  exact ⟨failures, yields_attempt_iff.2 ⟨_, ran, rfl⟩⟩

/-- A look-ahead that accepts has consumed nothing. -/
theorem Accepts.lookAhead (h : parser.Accepts grammar c value t) :
    (Parser.lookAhead parser).Accepts grammar c value [] := by
  obtain ⟨position, ran⟩ := h
  exact ⟨position, yields_lookAhead_iff.2 ⟨_, ran, rfl⟩⟩

/-- A look-ahead that rejects leaves consumed what its parser has consumed. -/
theorem Rejects.lookAhead (h : parser.Rejects grammar c t) :
    (Parser.lookAhead parser).Rejects grammar c t := by
  obtain ⟨failures, ran⟩ := h
  exact ⟨failures, yields_lookAhead_iff.2 ⟨_, ran, rfl⟩⟩

/-- A rule accepts what it stands for accepts. -/
theorem Accepts.call {rule : R α} (h : (grammar α rule).Accepts grammar c value t) :
    (Parser.call rule).Accepts grammar c value t := by
  obtain ⟨position, ran⟩ := h
  exact ⟨position, yields_call_iff.2 ran⟩

/-- A rule rejects if what it stands for does. -/
theorem Rejects.call {rule : R α} (h : (grammar α rule).Rejects grammar c t) :
    (Parser.call rule).Rejects grammar c t := by
  obtain ⟨failures, ran⟩ := h
  exact ⟨failures, yields_call_iff.2 ran⟩

end

section

variable {item : Parser R (Option α)} {newestFirst values : List α} {value : α}

/-- A repetition ends when its item yields nothing. -/
theorem Accepts.collect_none (h : item.Accepts grammar c none t) :
    (Parser.collect item newestFirst).Accepts grammar c newestFirst.reverse t := by
  obtain ⟨position, ran⟩ := h
  exact ⟨_, yields_collect_iff.2 ⟨_, ran, rfl⟩⟩

/-- A repetition goes on when its item has consumed something. -/
theorem Accepts.collect_some (h : item.Accepts grammar c (some value) t) (consumed : t ≠ [])
    (rest : (Parser.collect item (value :: newestFirst)).Accepts grammar (c.past t) values u) :
    (Parser.collect item newestFirst).Accepts grammar c values (t ++ u) := by
  obtain ⟨position, ran⟩ := h
  obtain ⟨last, ran'⟩ := rest
  rw [← TextCursor.past_append] at ran'
  refine ⟨last, yields_collect_iff.2 ⟨_, ran, ?_⟩⟩
  have moved : ¬Cursor.position (c.past t) = Cursor.position c :=
    fun same => consumed (TextCursor.position_past_eq_iff.1 same)
  simp only [if_neg moved]
  exact ran'

/-- A repetition rejects if its item does. -/
theorem Rejects.collect (h : item.Rejects grammar c t) :
    (Parser.collect item newestFirst).Rejects grammar c t := by
  obtain ⟨failures, ran⟩ := h
  exact ⟨failures, yields_collect_iff.2 ⟨_, ran, rfl⟩⟩

/-- A repetition that goes on behind an item that consumed something rejects if the rest of it does. -/
theorem Accepts.collect_rejects (h : item.Accepts grammar c (some value) t) (consumed : t ≠ [])
    (rest : (Parser.collect item (value :: newestFirst)).Rejects grammar (c.past t) u) :
    (Parser.collect item newestFirst).Rejects grammar c (t ++ u) := by
  obtain ⟨position, ran⟩ := h
  obtain ⟨failures, ran'⟩ := rest
  rw [← TextCursor.past_append] at ran'
  refine ⟨failures, yields_collect_iff.2 ⟨_, ran, ?_⟩⟩
  have moved : ¬Cursor.position (c.past t) = Cursor.position c :=
    fun same => consumed (TextCursor.position_past_eq_iff.1 same)
  simp only [if_neg moved]
  exact ran'

end

end Parser

end Parsing
