import Parsing.Cursor.Text
import Parsing.Proofs.Machine.Simulation

/-!
# Runs that do not see the end of a text

A watched cursor remembers whether it has ever found the end of the document. To watch a run changes nothing
about it. If a run has not met the end of a text, then nothing tells it that the text ends there: it takes the
same steps on a longer text. And if nothing is added to the text, it does so in any case.
-/

namespace Parsing

open Parsing.Parser

variable {R : Type → Type} {S : Type} [Cursor S] {α : Type}

/-- A cursor that remembers whether the end of the document was found. -/
structure WatchedCursor (S : Type) where
  inner : S
  /-- Whether there was ever no character to look at or to consume. -/
  metEnd : Bool

namespace WatchedCursor

/-- Start to watch. -/
def ofCursor (c : S) : WatchedCursor S := ⟨c, false⟩

/-- The cursor after an answer, which shows the end of the document if it is no character. -/
def answered (c : WatchedCursor S) (answer : Option Char × S) : Option Char × WatchedCursor S :=
  (answer.1, ⟨answer.2, c.metEnd || answer.1.isNone⟩)

instance : Cursor (WatchedCursor S) where
  Point := Cursor.Point S
  peek c := c.answered (Cursor.peek c.inner)
  read c := c.answered (Cursor.read c.inner)
  position c := Cursor.position c.inner
  remaining c := ((Cursor.remaining c.inner).1, { c with inner := (Cursor.remaining c.inner).2 })
  mark c := ((Cursor.mark c.inner).1, { c with inner := (Cursor.mark c.inner).2 })
  restore c point := { c with inner := Cursor.restore c.inner point }
  release c point := { c with inner := Cursor.release c.inner point }
  sourceMap c := ((Cursor.sourceMap c.inner).1, { c with inner := (Cursor.sourceMap c.inner).2 })
  takeFault c := ((Cursor.takeFault c.inner).1, { c with inner := (Cursor.takeFault c.inner).2 })

/-- The cursor behaves like the one inside. -/
def simulatesInner (S : Type) [Cursor S] : Cursor.Simulation (WatchedCursor S) S where
  alike c d := c.inner = d
  points p q := p = q
  lost _ := False
  lost_keeps := ⟨fun _ h => h, fun _ h => h, fun _ h => h, fun _ _ h => h, fun _ _ h => h⟩
  position_eq := by rintro c d rfl; rfl
  peek_alike := by rintro c d rfl; exact .inr ⟨rfl, rfl⟩
  read_alike := by rintro c d rfl; exact .inr ⟨rfl, rfl⟩
  mark_alike := by rintro c d rfl; exact ⟨rfl, rfl⟩
  restore_alike := by rintro c d p q rfl rfl; exact .inr rfl
  release_alike := by rintro c d p q rfl rfl; rfl

/-- That the end was met is not forgotten. -/
theorem keeps_metEnd : Cursor.Keeps (WatchedCursor S) fun c => c.metEnd = true where
  peek _ h := Bool.or_eq_true_iff.2 (.inl h)
  read _ h := Bool.or_eq_true_iff.2 (.inl h)
  mark _ h := h
  restore _ _ h := h
  release _ _ h := h

end WatchedCursor

/-- The watched cursor after `budget` steps of a run. -/
def Parser.watch (grammar : Grammar R) (budget : Nat) (parser : Parser R α) (c : S) : WatchedCursor S :=
  (Trampoline.advance (State.step grammar) budget (.tail (.start parser (WatchedCursor.ofCursor c) .done))).cursor

/-- If a run comes to an end without having met the end of the document, it has not met it at any moment. -/
theorem WatchedCursor.metEnd_watch {grammar : Grammar R} {parser : Parser R α} {c : S} {needed : Nat}
    {final : Halt (WatchedCursor S) α} (ran : parser.run grammar needed (ofCursor c) = some final)
    (unseen : final.cursor.metEnd = false) (budget : Nat) : (parser.watch grammar budget c).metEnd = false := by
  rw [← Bool.not_eq_true]
  intro met
  have later := keeps_metEnd.advance grammar needed _ met
  rw [← Trampoline.advance_add] at later
  have ran' := Trampoline.run_of_le _ (Nat.le_add_left needed budget) ran
  rw [Trampoline.run] at ran'
  cases reached : Trampoline.advance (State.step grammar) (budget + needed)
      (.tail (.start parser (ofCursor c) .done)) with
  | done halt =>
    rw [reached] at ran' later
    obtain rfl : halt = final := Option.some.inj ran'
    exact Bool.false_ne_true (unseen.symm.trans later)
  | tail state =>
    rw [reached] at ran'
    cases ran'

namespace TextCursor

/-- The second cursor stands at the same position, and from there on its text is longer by this much. -/
structure Extended (more : List Char) (c d : TextCursor) : Prop where
  position : c.position = d.position
  rest : d.rest = c.rest ++ more

variable {more : List Char} {c d : TextCursor}

/-- To look at a character is to find what would be consumed. -/
theorem peek_eq_read (c : TextCursor) : c.peek = c.read.1 := by
  rw [peek, read]
  cases c.rest <;> rfl

/-- Both consume the same character, unless the end of the shorter text is met. -/
theorem Extended.read (h : c.Extended more d) :
    (more ≠ [] ∧ c.read.1 = none) ∨ (c.read.1 = d.read.1 ∧ Extended more c.read.2 d.read.2) := by
  rw [TextCursor.read, TextCursor.read, h.rest]
  cases hrest : c.rest with
  | nil =>
    cases more with
    | nil => exact .inr ⟨rfl, h⟩
    | cons char more => exact .inl ⟨List.cons_ne_nil _ _, rfl⟩
  | cons char rest => exact .inr ⟨rfl, congrArg (· + 1) h.position, rfl⟩

/-- The two cannot be told apart as long as the end of the shorter text is not met, or if it is not shorter. -/
def extending (more : List Char) : Cursor.Simulation (WatchedCursor TextCursor) TextCursor where
  alike c d := c.inner.Extended more d
  points p q := p.position = q.position ∧ q.rest = p.rest ++ more
  lost c := more ≠ [] ∧ c.metEnd = true
  lost_keeps :=
    ⟨fun _ h => ⟨h.1, WatchedCursor.keeps_metEnd.peek _ h.2⟩,
      fun _ h => ⟨h.1, WatchedCursor.keeps_metEnd.read _ h.2⟩, fun _ h => h, fun _ _ h => h, fun _ _ h => h⟩
  position_eq h := h.position
  peek_alike {c d} h := by
    change (more ≠ [] ∧ (c.metEnd || c.inner.peek.isNone) = true) ∨ (c.inner.peek = d.peek ∧ _)
    rw [c.inner.peek_eq_read, d.peek_eq_read]
    rcases h.read with ⟨longer, meets⟩ | ⟨same, -⟩
    · exact .inl ⟨longer, by rw [meets, Option.isNone_none, Bool.or_true]⟩
    · exact .inr ⟨same, h⟩
  read_alike {c d} h := by
    change (more ≠ [] ∧ (c.metEnd || c.inner.read.1.isNone) = true) ∨ _
    rcases h.read with ⟨longer, meets⟩ | same
    · exact .inl ⟨longer, by rw [meets, Option.isNone_none, Bool.or_true]⟩
    · exact .inr same
  mark_alike h := ⟨⟨h.position, h.rest⟩, h⟩
  restore_alike _ points := .inr ⟨points.1, points.2⟩
  release_alike h _ := h

/-- A run that does not meet the end of a text goes as it does on a longer text: it ends at the same moment, with
the same result and at the same position. -/
theorem run_of_unseen {grammar : Grammar R} {parser : Parser R α} (h : c.Extended more d)
    (unseen : more = [] ∨ ∀ budget, (parser.watch grammar budget c).metEnd = false) (budget : Nat) :
    (parser.run grammar budget c).map (Halt.mapCursor position) =
      (parser.run grammar budget d).map (Halt.mapCursor position) := by
  have never : ¬(extending more).lost (parser.watch grammar budget c) := by
    rintro ⟨longer, meets⟩
    rcases unseen with nothing | unseen
    · exact longer nothing
    · exact Bool.false_ne_true ((unseen budget).symm.trans meets)
  have watched : parser.run grammar budget c =
      (parser.run grammar budget (WatchedCursor.ofCursor c)).map (.mapCursor WatchedCursor.inner) :=
    (WatchedCursor.simulatesInner TextCursor).run_eq_map (fun _ h => h) id grammar budget parser rfl
  have start : (extending more).alike (.ofCursor c) d := h
  rw [watched]
  rcases (extending more).run_of_not_lost grammar budget parser start never with
    ⟨unfinished, other⟩ | ⟨halt, other, ran, ran', alike⟩
  · rw [unfinished, other]
    rfl
  · rw [ran, ran']
    cases alike with
    | finished result alike => exact congrArg (fun place => some (Halt.finished place result)) alike.position
    | stopped why alike => exact congrArg (fun place => some (Halt.stopped why place)) alike.position

end TextCursor

end Parsing
