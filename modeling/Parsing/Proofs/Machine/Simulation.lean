import Parsing.Proofs.Machine.Invariant

/-!
# Cursors that answer alike

If two cursors give the same answers to everything that parsers ask, and go on doing so, then every
parser runs on them in lockstep: both runs take the same steps, end at the same moment, and end alike.

The first cursor may get lost on the way, after which nothing is said about its answers. Being lost
is for good, so a run during which the cursor was lost at any time ends with a lost cursor.
-/

namespace Parsing

/-- When two kinds of cursors, and their marks, answer alike, and when the first kind is lost. -/
structure Cursor.Simulation (S T : Type) [Cursor S] [Cursor T] where
  alike : S → T → Prop
  points : Cursor.Point S → Cursor.Point T → Prop
  lost : S → Prop
  lost_keeps : Cursor.Keeps S lost
  position_eq : ∀ {c d}, alike c d → Cursor.position c = Cursor.position d
  peek_alike : ∀ {c d}, alike c d → lost (Cursor.peek c).2 ∨
    ((Cursor.peek c).1 = (Cursor.peek d).1 ∧ alike (Cursor.peek c).2 (Cursor.peek d).2)
  read_alike : ∀ {c d}, alike c d → lost (Cursor.read c).2 ∨
    ((Cursor.read c).1 = (Cursor.read d).1 ∧ alike (Cursor.read c).2 (Cursor.read d).2)
  mark_alike : ∀ {c d}, alike c d →
    points (Cursor.mark c).1 (Cursor.mark d).1 ∧ alike (Cursor.mark c).2 (Cursor.mark d).2
  restore_alike : ∀ {c d p q}, alike c d → points p q →
    lost (Cursor.restore c p) ∨ alike (Cursor.restore c p) (Cursor.restore d q)
  release_alike : ∀ {c d p q}, alike c d → points p q →
    alike (Cursor.release c p) (Cursor.release d q)

variable {R : Type → Type} {S T : Type} [Cursor S] [Cursor T] {α β γ : Type}

namespace Parser

/-- Frames that differ at most in their marks, and these answer alike. -/
inductive Frame.Alike {P Q : Type} (points : P → Q → Prop) :
    {α β : Type} → Frame R P α β → Frame R Q α β → Prop
  | bind {α β : Type} (next : α → Parser R β) : Alike points (.bind next) (.bind next)
  | map {α β : Type} (f : α → β) : Alike points (.map f) (.map f)
  | choice {α : Type} (origin : Nat) (second : Parser R α) :
      Alike points (.choice origin second) (.choice origin second)
  | after {α : Type} (earlier : Failures) :
      Alike points (.after (α := α) earlier) (.after earlier)
  | attempt {α : Type} {p : P} {q : Q} (h : points p q) :
      Alike points (.attempt (α := α) p) (.attempt q)
  | lookAhead {α : Type} {p : P} {q : Q} (h : points p q) :
      Alike points (.lookAhead (α := α) p) (.lookAhead q)
  | collect {α : Type} (item : Parser R (Option α)) (newestFirst : List α) (origin : Nat) :
      Alike points (.collect item newestFirst origin) (.collect item newestFirst origin)

/-- Pending work that differs at most in its marks, and these answer alike. -/
inductive Continuation.Alike {P Q : Type} (points : P → Q → Prop) :
    {α γ : Type} → Continuation R P α γ → Continuation R Q α γ → Prop
  | done {γ : Type} : Alike points (.done (γ := γ)) .done
  | push {α β γ : Type} {frame : Frame R P α β} {other : Frame R Q α β}
      {rest : Continuation R P β γ} {more : Continuation R Q β γ} (frames : frame.Alike points other)
      (h : Alike points rest more) : Alike points (.push frame rest) (.push other more)

/-- Runs that ended the same way, with cursors that answer alike. -/
inductive Halt.Alike (sim : Cursor.Simulation S T) : Halt S α → Halt T α → Prop
  | finished {c : S} {d : T} (result : Result α) (h : sim.alike c d) :
      Alike sim (.finished c result) (.finished d result)
  | stopped {c : S} {d : T} (why : Stop) (h : sim.alike c d) : Alike sim (.stopped why c) (.stopped why d)

/-- The same end of a run, with the cursor seen through a function. -/
def Halt.mapCursor (f : S → T) : Halt S α → Halt T α
  | finished c result => finished (f c) result
  | stopped why c => stopped why (f c)

/-- Runs at the same point, with cursors that answer alike. -/
inductive State.Alike (sim : Cursor.Simulation S T) : State R S γ → State R T γ → Prop
  | start {α : Type} {c : S} {d : T} {rest : Continuation R (Cursor.Point S) α γ}
      {more : Continuation R (Cursor.Point T) α γ} (parser : Parser R α) (h : sim.alike c d)
      (work : rest.Alike sim.points more) : Alike sim (.start parser c rest) (.start parser d more)
  | resume {α : Type} {c : S} {d : T} {rest : Continuation R (Cursor.Point S) α γ}
      {more : Continuation R (Cursor.Point T) α γ} (result : Result α) (h : sim.alike c d)
      (work : rest.Alike sim.points more) : Alike sim (.resume rest c result) (.resume more d result)

end Parser

/-- Steps that agree: both ended alike or both go on alike, unless the first cursor is lost. -/
inductive Trampoline.Agree (sim : Cursor.Simulation S T) :
    Trampoline (Parser.State R S γ) (Parser.Halt S γ) →
    Trampoline (Parser.State R T γ) (Parser.Halt T γ) → Prop
  | lost {s : Trampoline (Parser.State R S γ) (Parser.Halt S γ)}
      {t : Trampoline (Parser.State R T γ) (Parser.Halt T γ)} (h : sim.lost s.cursor) : Agree sim s t
  | done {halt : Parser.Halt S γ} {other : Parser.Halt T γ} (h : halt.Alike sim other) :
      Agree sim (.done halt) (.done other)
  | tail {state : Parser.State R S γ} {other : Parser.State R T γ} (h : state.Alike sim other) :
      Agree sim (.tail state) (.tail other)

namespace Cursor.Simulation

open Parsing.Parser

variable (sim : Cursor.Simulation S T)

/-- A scan gets the same answers from both cursors, so it decides the same. -/
theorem scan (program : Scan α) {c : S} {d : T} (h : sim.alike c d) :
    sim.lost (program.run c).2 ∨
      ((program.run c).1 = (program.run d).1 ∧ sim.alike (program.run c).2 (program.run d).2) := by
  induction program generalizing c d with
  | finish result => exact .inr ⟨rfl, h⟩
  | stop why => exact .inr ⟨rfl, h⟩
  | peek next ih =>
    rcases sim.peek_alike h with lost | ⟨same, alike⟩
    · exact .inl (sim.lost_keeps.scan (next (Cursor.peek c).1) _ lost)
    · simp only [Scan.run, ← same]
      exact ih _ alike
  | read next ih =>
    rcases sim.read_alike h with lost | ⟨same, alike⟩
    · exact .inl (sim.lost_keeps.scan (next (Cursor.read c).1) _ lost)
    · simp only [Scan.run, ← same]
      exact ih _ alike
  | position next ih =>
    simp only [Scan.run, sim.position_eq h]
    exact ih _ h

/-- Starting a parser on both cursors is one step of both runs. -/
theorem enter (grammar : Grammar R) (parser : Parser R α) {c : S} {d : T}
    {rest : Continuation R (Cursor.Point S) α γ} {more : Continuation R (Cursor.Point T) α γ}
    (h : sim.alike c d) (work : rest.Alike sim.points more) :
    Trampoline.Agree sim (State.enter grammar parser c rest) (State.enter grammar parser d more) := by
  cases parser with
  | scan program =>
    rcases sim.scan program h with lost | ⟨same, alike⟩
    · refine .lost ?_
      rw [State.enter]
      split
      · next ran => rwa [ran] at lost
      · next ran => rwa [ran] at lost
    · rw [State.enter, State.enter]
      rcases ran : program.run c with ⟨why | result, after⟩ <;> rw [ran] at same alike <;>
        rcases ran' : program.run d with ⟨reason | other, after'⟩ <;> rw [ran'] at same alike
      · obtain rfl : why = reason := Except.error.inj same
        exact .done (.stopped why alike)
      · cases same
      · cases same
      · obtain rfl : result = other := Except.ok.inj same
        exact .tail (.resume result alike work)
  | bind first next => exact .tail (.start first h (.push (.bind next) work))
  | map f parser => exact .tail (.start parser h (.push (.map f) work))
  | choice first second =>
    refine .tail (.start first h (.push ?_ work))
    rw [sim.position_eq h]
    exact .choice _ second
  | attempt parser =>
    obtain ⟨points, alike⟩ := sim.mark_alike h
    exact .tail (.start parser alike (.push (.attempt points) work))
  | lookAhead parser =>
    obtain ⟨points, alike⟩ := sim.mark_alike h
    exact .tail (.start parser alike (.push (.lookAhead points) work))
  | call rule => exact .tail (.start (grammar _ rule) h work)
  | collect item newestFirst =>
    refine .tail (.start item h (.push ?_ work))
    rw [sim.position_eq h]
    exact .collect item newestFirst _

/-- Returning to marks that answer alike, on the way to the same pending work. -/
theorem resume_restore {c : S} {d : T} {p : Cursor.Point S} {q : Cursor.Point T}
    {rest : Continuation R (Cursor.Point S) α γ} {more : Continuation R (Cursor.Point T) α γ}
    (h : sim.alike c d) (points : sim.points p q) (work : rest.Alike sim.points more)
    (result : Result α) :
    Trampoline.Agree sim (.tail (.resume rest (Cursor.restore c p) result))
      (.tail (.resume more (Cursor.restore d q) result)) := by
  rcases sim.restore_alike h points with lost | alike
  · exact .lost lost
  · exact .tail (.resume result alike work)

/-- Handing the same result to frames that answer alike is one step of both runs. -/
theorem continueWith {frame : Frame R (Cursor.Point S) α β} {other : Frame R (Cursor.Point T) α β}
    (frames : frame.Alike sim.points other) {c : S} {d : T} (result : Result α)
    {rest : Continuation R (Cursor.Point S) β γ} {more : Continuation R (Cursor.Point T) β γ}
    (h : sim.alike c d) (work : rest.Alike sim.points more) :
    Trampoline.Agree sim (.tail (State.continueWith frame c result rest))
      (.tail (State.continueWith other d result more)) := by
  cases frames with
  | bind next =>
    cases result with
    | success value position => exact .tail (.start (next value) h work)
    | failure failures => exact .tail (.resume (.failure failures) h work)
  | map f => exact .tail (.resume (result.map f) h work)
  | choice origin second =>
    cases result with
    | success value position => exact .tail (.resume (.success value position) h work)
    | failure failures =>
      rw [State.continueWith, State.continueWith, sim.position_eq h]
      split
      · exact .tail (.start second h (.push (.after failures) work))
      · exact .tail (.resume (.failure failures) h work)
  | after earlier => exact .tail (.resume (result.after earlier) h work)
  | attempt points =>
    cases result with
    | success value position =>
      exact .tail (.resume (.success value position) (sim.release_alike h points) work)
    | failure failures => exact sim.resume_restore h points work (.failure failures)
  | lookAhead points =>
    cases result with
    | success value position => exact sim.resume_restore h points work (.success value position)
    | failure failures =>
      exact .tail (.resume (.failure failures) (sim.release_alike h points) work)
  | collect item newestFirst origin =>
    cases result with
    | failure failures => exact .tail (.resume (.failure failures) h work)
    | success value position =>
      cases value with
      | none =>
        rw [State.continueWith, State.continueWith, sim.position_eq h]
        exact .tail (.resume _ h work)
      | some value =>
        rw [State.continueWith, State.continueWith, sim.position_eq h]
        split
        · exact .tail (.resume _ h work)
        · exact .tail (.start (.collect item (value :: newestFirst)) h work)

/-- Runs at the same point take the same step. -/
theorem step (grammar : Grammar R) {state : State R S γ} {other : State R T γ}
    (h : state.Alike sim other) : Trampoline.Agree sim (state.step grammar) (other.step grammar) := by
  cases h with
  | start parser h work => exact sim.enter grammar parser h work
  | resume result h work =>
    cases work with
    | done => exact .done (.finished result h)
    | push frames work => exact sim.continueWith frames result h work

/-- Runs that agree agree at every later moment. -/
theorem advance (grammar : Grammar R) (budget : Nat)
    {s : Trampoline (State R S γ) (Halt S γ)} {t : Trampoline (State R T γ) (Halt T γ)}
    (h : Trampoline.Agree sim s t) :
    Trampoline.Agree sim (Trampoline.advance (State.step grammar) budget s)
      (Trampoline.advance (State.step grammar) budget t) := by
  induction budget generalizing s t with
  | zero => simpa using h
  | succ budget ih =>
    cases h with
    | lost h => exact .lost (sim.lost_keeps.advance grammar _ _ h)
    | done h => exact .done h
    | tail h => exact ih (sim.step grammar h)

/-- A parser run on cursors that answer alike ends alike within the same number of steps, or not at all on
both, if the first cursor is not lost by then. -/
theorem run_of_not_lost (grammar : Grammar R) (budget : Nat) (parser : Parser R α) {c : S} {d : T}
    (h : sim.alike c d)
    (never : ¬sim.lost (Trampoline.advance (State.step grammar) budget (.tail (.start parser c .done))).cursor) :
    (parser.run grammar budget c = none ∧ parser.run grammar budget d = none) ∨
    (∃ halt other, parser.run grammar budget c = some halt ∧
      parser.run grammar budget d = some other ∧ halt.Alike sim other) := by
  have agree : Trampoline.Agree sim
      (Trampoline.advance (State.step grammar) budget (.tail (.start parser c .done)))
      (Trampoline.advance (State.step grammar) budget (.tail (.start parser d .done))) :=
    sim.advance grammar budget (.tail (.start parser h .done))
  unfold Parser.run Trampoline.run
  generalize Trampoline.advance (State.step grammar) budget (.tail (.start parser c .done)) = s
    at agree never ⊢
  generalize Trampoline.advance (State.step grammar) budget (.tail (.start parser d .done)) = t at agree ⊢
  cases agree with
  | lost lost => exact absurd lost never
  | done alike => exact .inr ⟨_, _, rfl, rfl, alike⟩
  | tail alike => exact .inl ⟨rfl, rfl⟩

/-- A parser run on cursors that answer alike ends alike within the same number of steps, or not at
all on both, unless the first cursor gets lost. -/
theorem run (grammar : Grammar R) (budget : Nat) (parser : Parser R α) {c : S} {d : T}
    (h : sim.alike c d) :
    (∃ halt, parser.run grammar budget c = some halt ∧ sim.lost halt.cursor) ∨
    (∃ state : State R S α, parser.run grammar budget c = none ∧ sim.lost state.cursor) ∨
    (parser.run grammar budget c = none ∧ parser.run grammar budget d = none) ∨
    (∃ halt other, parser.run grammar budget c = some halt ∧
      parser.run grammar budget d = some other ∧ halt.Alike sim other) := by
  by_cases lost : sim.lost
      (Trampoline.advance (State.step grammar) budget (.tail (.start parser c .done))).cursor
  · unfold Parser.run Trampoline.run
    cases reached : Trampoline.advance (State.step grammar) budget (.tail (.start parser c .done)) with
    | done halt =>
      rw [reached] at lost
      exact .inl ⟨halt, rfl, lost⟩
    | tail state =>
      rw [reached] at lost
      exact .inr (.inl ⟨state, rfl, lost⟩)
  · exact .inr (.inr (sim.run_of_not_lost grammar budget parser h lost))

/-- If cursors that answer alike are those that a function takes to one another, then it takes a run to a
run. -/
theorem run_eq_map (never : ∀ c, ¬sim.lost c) {f : S → T} (maps : ∀ {c d}, sim.alike c d → f c = d)
    (grammar : Grammar R) (budget : Nat) (parser : Parser R α) {c : S} {d : T} (h : sim.alike c d) :
    parser.run grammar budget d = (parser.run grammar budget c).map (Halt.mapCursor f) := by
  rcases sim.run grammar budget parser h with ⟨halt, -, lost⟩ | ⟨state, -, lost⟩ | ⟨unfinished, other⟩ |
    ⟨halt, other, ran, ran', alike⟩
  · exact absurd lost (never _)
  · exact absurd lost (never _)
  · rw [unfinished, other, Option.map_none]
  · rw [ran, ran', Option.map_some]
    cases alike with
    | finished result alike => rw [Halt.mapCursor, maps alike]
    | stopped why alike => rw [Halt.mapCursor, maps alike]

end Cursor.Simulation

end Parsing
