import Parsing.Parser.Machine

/-!
# What every run keeps

A run uses marks as a stack: the marks that its pending work holds are those made and not yet used up,
and only the newest is used. So whatever relates a cursor to the marks that are still open, if each
operation on the newest mark preserves it, holds at every moment of a run.

In particular a property of cursors alone that every operation preserves holds of the cursor at every
moment, whatever the parser and however it ends. Taking a fault is no operation of parsers and may break
it.
-/

namespace Parsing

/-- A relation between a cursor and its open marks, newest first, that everything a parser can do
preserves as long as only the newest mark is used. -/
structure Cursor.KeepsStack (S : Type) [Cursor S] (holds : S → List (Cursor.Point S) → Prop) : Prop where
  peek : ∀ c marks, holds c marks → holds (Cursor.peek c).2 marks
  read : ∀ c marks, holds c marks → holds (Cursor.read c).2 marks
  mark : ∀ c marks, holds c marks → holds (Cursor.mark c).2 ((Cursor.mark c).1 :: marks)
  restore : ∀ c point marks, holds c (point :: marks) → holds (Cursor.restore c point) marks
  release : ∀ c point marks, holds c (point :: marks) → holds (Cursor.release c point) marks

/-- A property of cursors that everything a parser can do to a cursor preserves. Marks are not restricted:
the property has to survive a return to any mark at all. -/
structure Cursor.Keeps (S : Type) [Cursor S] (P : S → Prop) : Prop where
  peek : ∀ c, P c → P (Cursor.peek c).2
  read : ∀ c, P c → P (Cursor.read c).2
  mark : ∀ c, P c → P (Cursor.mark c).2
  restore : ∀ c point, P c → P (Cursor.restore c point)
  release : ∀ c point, P c → P (Cursor.release c point)

variable {R : Type → Type} {S : Type} [Cursor S] {P : S → Prop}
  {holds : S → List (Cursor.Point S) → Prop} {α β γ : Type}

namespace Parser

/-- The cursor with which a run ended. -/
def Halt.cursor : Halt S α → S
  | finished c _ => c
  | stopped _ c => c

/-- The cursor of a run under way. -/
def State.cursor : State R S γ → S
  | start _ c _ => c
  | resume _ c _ => c

/-- The mark that a frame holds, if it holds one. -/
def Frame.mark? {P : Type} : Frame R P α β → Option P
  | attempt point => some point
  | lookAhead point => some point
  | _ => none

/-- The marks that pending work holds, newest first. -/
def Continuation.marks {P : Type} {α γ : Type} : Continuation R P α γ → List P
  | done => []
  | push frame rest => frame.mark?.toList ++ rest.marks

/-- The open marks of a run under way, newest first. -/
def State.marks : State R S γ → List (Cursor.Point S)
  | start _ _ rest => rest.marks
  | resume rest _ _ => rest.marks

end Parser

namespace Trampoline

/-- The cursor as it is after a step, whether the run goes on or not. -/
def cursor : Trampoline (Parser.State R S γ) (Parser.Halt S γ) → S
  | done halt => halt.cursor
  | tail state => state.cursor

/-- A relation holds between the cursor after a step and the open marks. A run that finished has none, and
one that was stopped left some open. -/
def Holds (holds : S → List (Cursor.Point S) → Prop) :
    Trampoline (Parser.State R S γ) (Parser.Halt S γ) → Prop
  | done (.finished c _) => holds c []
  | done (.stopped _ c) => ∃ marks, holds c marks
  | tail state => holds state.cursor state.marks

/-- There are open marks, if only none, to which the cursor is related. -/
theorem Holds.exists_marks {t : Trampoline (Parser.State R S γ) (Parser.Halt S γ)} (h : t.Holds holds) :
    ∃ marks, holds t.cursor marks := by
  cases t with
  | done halt =>
    cases halt with
    | finished c result => exact ⟨[], h⟩
    | stopped why c => exact h
  | tail state => exact ⟨state.marks, h⟩

end Trampoline

namespace Cursor.KeepsStack

/-- A scan asks the cursor for characters and positions only. -/
theorem scan (keeps : Cursor.KeepsStack S holds) (program : Scan α) (c : S)
    (marks : List (Cursor.Point S)) (h : holds c marks) : holds (program.run c).2 marks := by
  induction program generalizing c with
  | finish result => exact h
  | stop why => exact h
  | peek next ih => exact ih _ _ (keeps.peek c marks h)
  | read next ih => exact ih _ _ (keeps.read c marks h)
  | position next ih => exact ih _ _ h

/-- Starting a parser makes at most one mark, which a frame then holds. -/
theorem enter (keeps : Cursor.KeepsStack S holds) (grammar : Grammar R) (parser : Parser R α) (c : S)
    (rest : Parser.Continuation R (Cursor.Point S) α γ) (h : holds c rest.marks) :
    (Parser.State.enter grammar parser c rest).Holds holds := by
  cases parser with
  | scan program =>
    have kept := keeps.scan program c rest.marks h
    rw [Parser.State.enter]
    split
    · next ran => rwa [ran] at kept
    · next ran =>
      rw [ran] at kept
      exact ⟨rest.marks, kept⟩
  | attempt parser => exact keeps.mark c rest.marks h
  | lookAhead parser => exact keeps.mark c rest.marks h
  | _ => exact h

/-- Handing a result to a frame uses up the mark that the frame holds. -/
theorem continueWith (keeps : Cursor.KeepsStack S holds)
    (frame : Parser.Frame R (Cursor.Point S) α β) (c : S) (result : Result α)
    (rest : Parser.Continuation R (Cursor.Point S) β γ) (h : holds c (frame.mark?.toList ++ rest.marks)) :
    Trampoline.Holds holds (.tail (Parser.State.continueWith frame c result rest)) := by
  cases frame with
  | bind next => cases result <;> exact h
  | map f => exact h
  | choice origin second =>
    cases result with
    | success => exact h
    | failure =>
      rw [Parser.State.continueWith]
      split <;> exact h
  | after earlier => exact h
  | attempt point =>
    cases result with
    | success => exact keeps.release c point rest.marks h
    | failure => exact keeps.restore c point rest.marks h
  | lookAhead point =>
    cases result with
    | success => exact keeps.restore c point rest.marks h
    | failure => exact keeps.release c point rest.marks h
  | collect item newestFirst origin =>
    cases result with
    | failure => exact h
    | success value position =>
      cases value with
      | none => exact h
      | some value =>
        rw [Parser.State.continueWith]
        split <;> exact h

/-- One step of a run preserves what every operation preserves. -/
theorem step (keeps : Cursor.KeepsStack S holds) (grammar : Grammar R) (state : Parser.State R S γ)
    (h : holds state.cursor state.marks) : (state.step grammar).Holds holds := by
  cases state with
  | start parser c rest => exact keeps.enter grammar parser c rest h
  | resume rest c result =>
    cases rest with
    | done => exact h
    | push frame rest => exact keeps.continueWith frame c result rest h

/-- A whole run preserves what every operation preserves, also when it is cut short. -/
theorem advance (keeps : Cursor.KeepsStack S holds) (grammar : Grammar R) (budget : Nat)
    (start : Trampoline (Parser.State R S γ) (Parser.Halt S γ)) (h : start.Holds holds) :
    (Trampoline.advance (Parser.State.step grammar) budget start).Holds holds := by
  induction budget generalizing start with
  | zero => simpa using h
  | succ budget ih =>
    cases start with
    | done halt => simpa using h
    | tail state => exact ih _ (keeps.step grammar state h)

/-- A run that finishes has used up all its marks. -/
theorem run (keeps : Cursor.KeepsStack S holds) {grammar : Grammar R} {budget : Nat}
    {parser : Parser R α} {c : S} {halt : Parser.Halt S α}
    (ran : parser.run grammar budget c = some halt) (h : holds c []) :
    (Trampoline.done halt : Trampoline (Parser.State R S α) _).Holds holds := by
  have kept := keeps.advance grammar budget (.tail (.start parser c .done)) h
  rwa [Trampoline.advance_of_run _ ran] at kept

end Cursor.KeepsStack

namespace Cursor.Keeps

/-- What survives a return to any mark survives a return to the newest. -/
theorem stack (keeps : Cursor.Keeps S P) : Cursor.KeepsStack S fun c _ => P c where
  peek c _ := keeps.peek c
  read c _ := keeps.read c
  mark c _ := keeps.mark c
  restore c point _ := keeps.restore c point
  release c point _ := keeps.release c point

/-- A scan asks the cursor for characters and positions only. -/
theorem scan (keeps : Cursor.Keeps S P) (program : Scan α) (c : S) (h : P c) : P (program.run c).2 :=
  keeps.stack.scan program c [] h

/-- A whole run preserves what every operation preserves, also when it is cut short. -/
theorem advance (keeps : Cursor.Keeps S P) (grammar : Grammar R) (budget : Nat)
    (start : Trampoline (Parser.State R S γ) (Parser.Halt S γ)) (h : P start.cursor) :
    P (Trampoline.advance (Parser.State.step grammar) budget start).cursor := by
  have holds : start.Holds fun c _ => P c := by
    rcases start with (⟨c, result⟩ | c) | state
    · exact h
    · exact ⟨[], h⟩
    · exact h
  obtain ⟨-, kept⟩ := (keeps.stack.advance grammar budget start holds).exists_marks
  exact kept

/-- What holds of the cursor given to a parser holds of the cursor that it leaves. -/
theorem run (keeps : Cursor.Keeps S P) {grammar : Grammar R} {budget : Nat}
    {parser : Parser R α} {c : S} {halt : Parser.Halt S α}
    (ran : parser.run grammar budget c = some halt) (h : P c) : P halt.cursor := by
  obtain ⟨-, kept⟩ := (keeps.stack.run ran h).exists_marks
  exact kept

end Cursor.Keeps

end Parsing
