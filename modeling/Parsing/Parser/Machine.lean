import Parsing.Parser
import Parsing.Trampoline

/-!
# The machine that runs parsers

A parser runs in small steps over explicit pending work, a stack of frames. A state either starts a
parser or hands a result to the pending work; `State.step` goes from one state to the next, and a
trampoline drives it. So neither nesting nor repetition takes native stack, and a run that does not
end shows as a budget that is never enough.
-/

namespace Parsing.Parser

/-- What to do with the result of a parser, where `P` is the type of marks. -/
inductive Frame (R : Type → Type) (P : Type) : Type → Type → Type 1 where
  | bind {α β : Type} (next : α → Parser R β) : Frame R P α β
  | map {α β : Type} (f : α → β) : Frame R P α β
  | choice {α : Type} (origin : Nat) (second : Parser R α) : Frame R P α α
  | after {α : Type} (earlier : Failures) : Frame R P α α
  | attempt {α : Type} (point : P) : Frame R P α α
  | lookAhead {α : Type} (point : P) : Frame R P α α
  | collect {α : Type} (item : Parser R (Option α)) (newestFirst : List α) (origin : Nat) :
      Frame R P (Option α) (List α)

/-- Pending work, innermost first, that turns a result for `α` into one for `γ`. -/
inductive Continuation (R : Type → Type) (P : Type) : Type → Type → Type 1 where
  | done {γ : Type} : Continuation R P γ γ
  | push {α β γ : Type} (frame : Frame R P α β) (rest : Continuation R P β γ) :
      Continuation R P α γ

/-- How a run ended: with a result, or stopped before there was one; either way with the cursor as it
was left. -/
inductive Halt (S α : Type) where
  | finished (cursor : S) (result : Result α)
  | stopped (why : Stop) (cursor : S)

/-- A run that aims at a result for `γ`: about to start a parser, or to hand on a result. -/
inductive State (R : Type → Type) (S : Type) [Cursor S] (γ : Type) : Type 1 where
  | start {α : Type} (parser : Parser R α) (cursor : S)
      (rest : Continuation R (Cursor.Point S) α γ)
  | resume {α : Type} (rest : Continuation R (Cursor.Point S) α γ) (cursor : S) (result : Result α)

namespace State

variable {R : Type → Type} {S : Type} [Cursor S] {α β γ : Type}

/-- Start a parser, with the frames of its operation pushed on the pending work. -/
def enter (grammar : Grammar R) {α : Type} (parser : Parser R α) (c : S)
    (rest : Continuation R (Cursor.Point S) α γ) : Trampoline (State R S γ) (Halt S γ) :=
  match parser with
  | .scan program =>
    match program.run c with
    | (.ok result, c) => .tail (.resume rest c result)
    | (.error why, c) => .done (.stopped why c)
  | .bind first next => .tail (.start first c (.push (.bind next) rest))
  | .map f parser => .tail (.start parser c (.push (.map f) rest))
  | .choice first second =>
    .tail (.start first c (.push (.choice (Cursor.position c) second) rest))
  | .attempt parser =>
    let (point, c) := Cursor.mark c
    .tail (.start parser c (.push (.attempt point) rest))
  | .lookAhead parser =>
    let (point, c) := Cursor.mark c
    .tail (.start parser c (.push (.lookAhead point) rest))
  | .call rule => .tail (.start (grammar _ rule) c rest)
  | .collect item newestFirst =>
    .tail (.start item c (.push (.collect item newestFirst (Cursor.position c)) rest))

/-- Hand a result to one frame. -/
def continueWith {α β : Type} (frame : Frame R (Cursor.Point S) α β) (c : S) (result : Result α)
    (rest : Continuation R (Cursor.Point S) β γ) : State R S γ :=
  match frame, result with
  | .bind next, .success value _ => .start (next value) c rest
  | .bind _, .failure failures => .resume rest c (.failure failures)
  | .map f, result => .resume rest c (result.map f)
  | .choice _ _, .success value position => .resume rest c (.success value position)
  | .choice origin second, .failure failures =>
    if Cursor.position c = origin then .start second c (.push (.after failures) rest)
    else .resume rest c (.failure failures)
  | .after earlier, result => .resume rest c (result.after earlier)
  | .attempt point, .success value position =>
    .resume rest (Cursor.release c point) (.success value position)
  | .attempt point, .failure failures => .resume rest (Cursor.restore c point) (.failure failures)
  | .lookAhead point, .success value position =>
    .resume rest (Cursor.restore c point) (.success value position)
  | .lookAhead point, .failure failures => .resume rest (Cursor.release c point) (.failure failures)
  | .collect _ _ _, .failure failures => .resume rest c (.failure failures)
  | .collect _ newestFirst _, .success none _ =>
    .resume rest c (.success newestFirst.reverse (Cursor.position c))
  | .collect item newestFirst origin, .success (some value) _ =>
    if Cursor.position c = origin then
      .resume rest c (.success (value :: newestFirst).reverse (Cursor.position c))
    else .start (.collect item (value :: newestFirst)) c rest

/-- One step of a run. -/
def step (grammar : Grammar R) : State R S γ → Trampoline (State R S γ) (Halt S γ)
  | start parser c rest => enter grammar parser c rest
  | resume .done c result => .done (.finished c result)
  | resume (.push frame rest) c result => .tail (continueWith frame c result rest)

end State

/-- Run a parser for at most `budget` steps. -/
def run {R : Type → Type} {S : Type} [Cursor S] {α : Type} (grammar : Grammar R) (budget : Nat)
    (parser : Parser R α) (c : S) : Option (Halt S α) :=
  Trampoline.run (State.step grammar) budget (.tail (.start parser c .done))

end Parsing.Parser
