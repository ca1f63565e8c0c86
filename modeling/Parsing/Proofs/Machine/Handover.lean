import Parsing.Cursor.Text
import Parsing.Parser.Combinator
import Parsing.Proofs.Machine.Evaluation

/-!
# What stands behind a parser

A parser is not always the whole of a computation: something may stand behind it that takes its result and
goes on. Whatever that is, it is started exactly once, with the result that direct evaluation of the
parser gives, and never if the run of the parser is stopped. The pending work of the machine is one of
the things that can stand behind a parser, so this holds at every place inside a run.

It follows that a stop is final: no operation around a parser that is reached can prevent it. And only a
scan can stop a run, so a parser without scans that stop for some reason is never stopped for it.
-/

namespace Parsing.Parser

universe u v

/-- The calls of a computation of two phases: the steps of a run, and then the calls of what stands behind
the run. -/
inductive Phase (R : Type → Type) (S : Type) [Cursor S] (α : Type) (C : Type u) : Type (max 1 u) where
  | running (state : State R S α)
  | behind (job : C)

variable {R : Type → Type} {S : Type} [Cursor S] {α γ : Type} {C : Type u} {β : Type v}

namespace Phase

/-- Run a parser with something standing behind it. The computation has no value, only a reason and a cursor,
if the run is stopped. -/
def ofParser (parser : Parser R α) (c : S) : Trampoline (Phase R S α C) (Except (Stop × S) β) :=
  .tail (.running (.start parser c .done))

/-- What stands behind the run goes on by itself. -/
def goOn : Trampoline C β → Trampoline (Phase R S α C) (Except (Stop × S) β)
  | .done value => .done (.ok value)
  | .tail job => .tail (.behind job)

/-- After a step of the run it goes on, or its result is handed to `next`, or it is stopped and all is
over. -/
def afterStep (next : S → Result α → Trampoline C β) :
    Trampoline (State R S α) (Halt S α) → Trampoline (Phase R S α C) (Except (Stop × S) β)
  | .tail state => .tail (.running state)
  | .done (.finished c result) => goOn (next c result)
  | .done (.stopped why c) => .done (.error (why, c))

variable (grammar : Grammar R) (next : S → Result α → Trampoline C β) (onward : C → Trampoline C β)

/-- Perform one call. -/
def perform : Phase R S α C → Trampoline (Phase R S α C) (Except (Stop × S) β)
  | running state => afterStep next (state.step grammar)
  | behind job => goOn (onward job)

/-- The result that a call hands over, if it does. -/
def handed : Phase R S α C → List (S × Result α)
  | running state =>
    match state.step grammar with
    | .done (.finished c result) => [(c, result)]
    | _ => []
  | behind _ => []

/-- The results that the first `budget` calls hand over, oldest first. -/
def handedOver : Nat → Trampoline (Phase R S α C) (Except (Stop × S) β) → List (S × Result α)
  | 0, _ => []
  | _ + 1, .done _ => []
  | budget + 1, .tail phase =>
    phase.handed grammar ++ handedOver budget (phase.perform grammar next onward)

variable {grammar next onward}

/-- What stands behind a run takes as many calls as it does alone. -/
theorem advance_goOn (budget : Nat) (t : Trampoline C β) :
    Trampoline.advance (perform grammar next onward) budget (goOn t) =
      goOn (R := R) (Trampoline.advance onward budget t) := by
  induction budget generalizing t with
  | zero => simp
  | succ budget ih =>
    cases t with
    | done value => simp [goOn]
    | tail job => exact ih (onward job)

/-- What stands behind a run is handed nothing any more. -/
theorem handedOver_goOn (budget : Nat) (t : Trampoline C β) :
    handedOver grammar next onward budget (goOn t) = [] := by
  induction budget generalizing t with
  | zero => rfl
  | succ budget ih =>
    cases t with
    | done value => rfl
    | tail job => exact ih (onward job)

/-- A run that finishes hands its result over, once, and from then on all is as if what stands behind it
had been started with this result. -/
theorem handOver_of_finished {budget : Nat} {state : State R S α} {d : S} {result : Result α}
    (ran : Trampoline.run (State.step grammar) budget (.tail state) = some (.finished d result)) :
    ∃ needed, ∀ more,
      handedOver grammar next onward (needed + more) (.tail (.running state)) = [(d, result)] ∧
      Trampoline.advance (perform grammar next onward) (needed + more) (.tail (.running state)) =
        goOn (Trampoline.advance onward more (next d result)) := by
  induction budget generalizing state with
  | zero => cases ran
  | succ budget ih =>
    rw [Trampoline.run, Trampoline.advance_succ_tail] at ran
    cases stepped : state.step grammar with
    | done halt =>
      rw [stepped, Trampoline.advance_done] at ran
      obtain rfl : halt = .finished d result := Option.some.inj ran
      have performed : perform grammar next onward (.running state) = goOn (next d result) := by
        rw [perform, stepped, afterStep]
      refine ⟨1, fun more => ⟨?_, ?_⟩⟩
      · rw [Nat.add_comm, handedOver, performed, handedOver_goOn, handed, stepped, List.append_nil]
      · rw [Nat.add_comm, Trampoline.advance_succ_tail, performed, advance_goOn]
    | tail after =>
      rw [stepped] at ran
      obtain ⟨needed, h⟩ := ih ran
      have performed : perform grammar next onward (.running state) = .tail (.running after) := by
        rw [perform, stepped, afterStep]
      refine ⟨needed + 1, fun more => ?_⟩
      rw [Nat.add_right_comm, handedOver, Trampoline.advance_succ_tail, performed, handed, stepped,
        List.nil_append]
      exact h more

/-- A result that is handed over is how the run ends. -/
theorem ends_of_mem_handedOver {budget : Nat} {state : State R S α} {d : S} {result : Result α}
    (h : (d, result) ∈ handedOver grammar next onward budget (.tail (.running state))) :
    State.Ends grammar (.tail state) (.finished d result) := by
  induction budget generalizing state with
  | zero => cases h
  | succ budget ih =>
    rw [State.ends_tail_iff]
    rw [handedOver, perform, handed] at h
    cases stepped : state.step grammar with
    | done halt =>
      rw [stepped] at h
      cases halt with
      | finished e other =>
        rw [afterStep, handedOver_goOn, List.append_nil, List.mem_singleton] at h
        cases h
        exact State.ends_done_iff.2 rfl
      | stopped why e => cases budget <;> cases h
    | tail after =>
      rw [stepped] at h
      exact ih h

/-- A run that is stopped ends the whole computation. -/
theorem advance_of_stopped {budget : Nat} {state : State R S α} {why : Stop} {d : S}
    (ran : Trampoline.run (State.step grammar) budget (.tail state) = some (.stopped why d)) :
    Trampoline.advance (perform grammar next onward) budget (.tail (.running state)) =
      .done (.error (why, d)) := by
  induction budget generalizing state with
  | zero => cases ran
  | succ budget ih =>
    rw [Trampoline.run, Trampoline.advance_succ_tail] at ran
    rw [Trampoline.advance_succ_tail, perform]
    cases stepped : state.step grammar with
    | done halt =>
      rw [stepped, Trampoline.advance_done] at ran
      obtain rfl : halt = .stopped why d := Option.some.inj ran
      rw [afterStep, Trampoline.advance_done]
    | tail after =>
      rw [stepped] at ran
      exact ih ran

/-- The machine with pending work, seen as a run behind which that work stands. -/
def flatten (rest : Continuation R (Cursor.Point S) α γ) :
    Trampoline (Phase R S α (State R S γ)) (Except (Stop × S) (Halt S γ)) → Trampoline (State R S γ) (Halt S γ)
  | .tail (.running state) => .tail (state.under rest)
  | .tail (.behind state) => .tail state
  | .done (.ok halt) => .done halt
  | .done (.error (why, c)) => .done (.stopped why c)

end Phase

/-- What pending work does when it gets a result. -/
def Continuation.receive (rest : Continuation R (Cursor.Point S) α γ) (grammar : Grammar R) (c : S)
    (result : Result α) : Trampoline (State R S γ) (Halt S γ) :=
  (State.resume rest c result).step grammar

namespace Phase

variable {grammar : Grammar R} {rest : Continuation R (Cursor.Point S) α γ}

/-- A run that goes on is itself once it is made flat again. -/
theorem flatten_goOn (t : Trampoline (State R S γ) (Halt S γ)) : flatten rest (goOn t) = t := by
  cases t <;> rfl

/-- A step of the machine is a call: either of the run that the pending work waits for, or of that work. -/
theorem flatten_perform (phase : Phase R S α (State R S γ)) :
    flatten rest (phase.perform grammar (rest.receive grammar) (State.step grammar)) =
      Trampoline.advance (State.step grammar) 1 (flatten rest (.tail phase)) := by
  rcases phase with (⟨parser, c, work⟩ | ⟨work, c, result⟩) | state
  · rw [perform, flatten, State.under, Trampoline.advance_succ_tail, Trampoline.advance_zero]
    change _ = State.enter grammar parser c (work.append rest)
    rw [State.enter_append parser c work rest]
    cases parser with
    | scan program =>
      rw [State.step, State.enter]
      rcases program.run c with ⟨_ | result, d⟩ <;> rfl
    | _ => rfl
  · cases work with
    | done =>
      change flatten rest (goOn (rest.receive grammar c result)) = _
      rw [flatten_goOn, flatten, State.under, Trampoline.advance_succ_tail, Trampoline.advance_zero]
      rfl
    | push frame work =>
      rw [perform, flatten, State.under, Trampoline.advance_succ_tail, Trampoline.advance_zero]
      change _ = Trampoline.tail (State.continueWith frame c result (work.append rest))
      rw [State.continueWith_append frame c result work rest]
      rfl
  · rw [perform, flatten_goOn, flatten, Trampoline.advance_succ_tail, Trampoline.advance_zero]

/-- Pending work stands behind the parser that it waits for, like anything else: the machine runs as if it
had been given the work as a continuation. -/
theorem advance_start_eq_flatten (budget : Nat) (t : Trampoline (Phase R S α (State R S γ))
    (Except (Stop × S) (Halt S γ))) :
    Trampoline.advance (State.step grammar) budget (flatten rest t) =
      flatten rest (Trampoline.advance (perform grammar (rest.receive grammar) (State.step grammar))
        budget t) := by
  induction budget generalizing t with
  | zero => simp
  | succ budget ih =>
    cases t with
    | done value => rcases value with ⟨why, c⟩ | halt <;> simp [flatten]
    | tail phase =>
      rw [Trampoline.advance_succ_tail, ← ih, flatten_perform, ← Trampoline.advance_add, Nat.add_comm]

end Phase

/-! ## Stopping -/

/-- A run of `parser` comes to start `part` on the cursor `d`, with whatever work pending. -/
def Reaches (grammar : Grammar R) (parser : Parser R γ) (c : S) (part : Parser R α) (d : S) : Prop :=
  ∃ budget rest, Trampoline.advance (State.step grammar) budget (.tail (.start parser c .done)) =
    .tail (.start part d rest)

/-- A part that is reached and stops the run makes the whole run stop, whatever is pending. -/
theorem Reaches.stopped {grammar : Grammar R} {parser : Parser R γ} {why : Stop} {c d e : S}
    {part : Parser R α} (h : parser.Reaches grammar c part d) (hstopped : part.Yields grammar d (.stopped why e)) :
    parser.Yields grammar c (.stopped why e) := by
  obtain ⟨budget, rest, reached⟩ := h
  have behind : State.Ends grammar (State.handOn rest (.tail (.start part d .done))) (.stopped why e) :=
    State.Ends.handOn_iff hstopped |>.2 (State.ends_done_iff.2 rfl)
  obtain ⟨more, ran⟩ := behind
  refine ⟨budget + more, ?_⟩
  rw [run, Trampoline.run, Trampoline.advance_add, reached]
  exact ran

/-- A run that is stopped comes to start a scan that stops it. -/
theorem State.exists_start_of_stopped {grammar : Grammar R} {budget : Nat} {state : State R S γ} {why : Stop}
    {e : S}
    (ran : Trampoline.run (step grammar) budget (.tail state) = some (.stopped why e)) :
    ∃ (β : Type) (program : Scan β) (d : S) (needed : Nat) (rest : Continuation R (Cursor.Point S) β γ),
      Trampoline.advance (step grammar) needed (.tail state) = .tail (start (.scan program) d rest) ∧
      program.run d = (.error why, e) := by
  induction budget generalizing state with
  | zero => cases ran
  | succ budget ih =>
    rw [Trampoline.run, Trampoline.advance_succ_tail] at ran
    have later (after : State R S γ) (stepped : state.step grammar = .tail after) :
        ∃ (β : Type) (program : Scan β) (d : S) (needed : Nat)
          (rest : Continuation R (Cursor.Point S) β γ),
          Trampoline.advance (step grammar) needed (.tail state) = .tail (start (.scan program) d rest) ∧
          program.run d = (.error why, e) := by
      rw [stepped] at ran
      obtain ⟨β, program, d, needed, rest, reached, stops⟩ := ih ran
      refine ⟨β, program, d, needed + 1, rest, ?_, stops⟩
      rw [Trampoline.advance_succ_tail, stepped, reached]
    rcases state with ⟨parser, c, rest⟩ | ⟨rest, c, result⟩
    · cases parser with
      | scan program =>
        rcases scanned : program.run c with ⟨_ | result, d⟩
        · refine ⟨_, program, c, 0, rest, rfl, ?_⟩
          rw [step, enter, scanned, Trampoline.advance_done] at ran
          cases ran
          exact scanned
        · exact later (.resume rest d result) (by rw [step, enter, scanned])
      | _ => exact later _ rfl
    · cases rest with
      | done =>
        rw [step, Trampoline.advance_done] at ran
        cases ran
      | push frame rest => exact later _ rfl

/-- A run is stopped exactly if it reaches a scan that stops it there. -/
theorem yields_stopped_iff {grammar : Grammar R} {parser : Parser R γ} {why : Stop} {c e : S} :
    parser.Yields grammar c (.stopped why e) ↔ ∃ (β : Type) (program : Scan β) (d : S),
      parser.Reaches grammar c (.scan program) d ∧ program.run d = (.error why, e) := by
  constructor
  · rintro ⟨budget, ran⟩
    obtain ⟨β, program, d, needed, rest, reached, stops⟩ := State.exists_start_of_stopped ran
    exact ⟨β, program, d, ⟨needed, rest, reached⟩, stops⟩
  · rintro ⟨β, program, d, reached, stops⟩
    refine reached.stopped (yields_scan_iff.2 ?_)
    rw [stops]

/-- No scan of the parser stops a run for this reason on cursors of type `S`. -/
def Avoids (why : Stop) (S : Type) [Cursor S] : {α : Type} → Parser R α → Prop
  | _, .scan program => ∀ c : S, (program.run c).1 ≠ .error why
  | _, .bind first next => first.Avoids why S ∧ ∀ value, (next value).Avoids why S
  | _, .map _ parser => parser.Avoids why S
  | _, .choice first second => first.Avoids why S ∧ second.Avoids why S
  | _, .attempt parser => parser.Avoids why S
  | _, .lookAhead parser => parser.Avoids why S
  | _, .call _ => True
  | _, .collect item _ => item.Avoids why S

/-- No parser that a frame may start stops a run for this reason. -/
def Frame.Avoids (why : Stop) (S : Type) [Cursor S] {P α β : Type} : Frame R P α β → Prop
  | .bind next => ∀ value, (next value).Avoids why S
  | .map _ => True
  | .choice _ second => second.Avoids why S
  | .after _ => True
  | .attempt _ => True
  | .lookAhead _ => True
  | .collect item _ _ => item.Avoids why S

/-- No parser that pending work may start stops a run for this reason. -/
def Continuation.Avoids (why : Stop) (S : Type) [Cursor S] {P α β : Type} : Continuation R P α β → Prop
  | .done => True
  | .push frame rest => frame.Avoids why S ∧ rest.Avoids why S

/-- No parser that a state may start stops the run for this reason. -/
def State.Avoids (why : Stop) : State R S γ → Prop
  | start parser _ rest => parser.Avoids why S ∧ rest.Avoids why S
  | resume rest _ _ => rest.Avoids why S

/-- The run is not stopped for this reason, and no parser that is still to be started stops it for that. -/
def State.Avoided (why : Stop) : Trampoline (State R S γ) (Halt S γ) → Prop
  | .tail state => state.Avoids why
  | .done (.finished _ _) => True
  | .done (.stopped reason _) => reason ≠ why

variable {grammar : Grammar R} {why : Stop}

/-- To start a parser that avoids a stop does not lead to it. -/
theorem State.avoided_enter (hgrammar : ∀ α rule, (grammar α rule).Avoids why S) {parser : Parser R α}
    {c : S} {rest : Continuation R (Cursor.Point S) α γ} (h : parser.Avoids why S) (hrest : rest.Avoids why S) :
    Avoided why (enter grammar parser c rest) := by
  cases parser with
  | scan program =>
    rw [enter]
    split
    · exact hrest
    · next reason d ran =>
      rintro rfl
      exact h c (congrArg Prod.fst ran)
  | bind first next => exact ⟨h.1, h.2, hrest⟩
  | map f parser => exact ⟨h, trivial, hrest⟩
  | choice first second => exact ⟨h.1, h.2, hrest⟩
  | attempt parser => exact ⟨h, trivial, hrest⟩
  | lookAhead parser => exact ⟨h, trivial, hrest⟩
  | call rule => exact ⟨hgrammar _ rule, hrest⟩
  | collect item newestFirst => exact ⟨h, h, hrest⟩

/-- Pending work that avoids a stop does so with every result. -/
theorem State.avoids_continueWith {α β : Type} {frame : Frame R (Cursor.Point S) α β} {c : S}
    {result : Result α} {rest : Continuation R (Cursor.Point S) β γ} (h : frame.Avoids why S)
    (hrest : rest.Avoids why S) : (continueWith frame c result rest).Avoids why := by
  cases frame with
  | bind next =>
    cases result with
    | success value position => exact ⟨h value, hrest⟩
    | failure failures => exact hrest
  | map f => exact hrest
  | choice origin second =>
    cases result with
    | success value position => exact hrest
    | failure failures =>
      rw [continueWith]
      split
      · exact ⟨h, trivial, hrest⟩
      · exact hrest
  | after earlier => exact hrest
  | attempt point => cases result <;> exact hrest
  | lookAhead point => cases result <;> exact hrest
  | collect item newestFirst origin =>
    rcases result with ⟨_ | value, position⟩ | failures
    · exact hrest
    · rw [continueWith]
      split
      · exact hrest
      · exact ⟨h, hrest⟩
    · exact hrest

/-- What may be started keeps avoiding the stop at every step. -/
theorem State.avoided_step (hgrammar : ∀ α rule, (grammar α rule).Avoids why S) {state : State R S γ}
    (h : state.Avoids why) : Avoided why (state.step grammar) := by
  cases state with
  | start parser c rest => exact avoided_enter hgrammar h.1 h.2
  | resume rest c result =>
    cases rest with
    | done => trivial
    | push frame rest => exact avoids_continueWith h.1 h.2

/-- A run whose parsers avoid a stop is not led to it by any number of steps. -/
theorem State.avoided_advance (hgrammar : ∀ α rule, (grammar α rule).Avoids why S) (budget : Nat)
    {t : Trampoline (State R S γ) (Halt S γ)} (h : Avoided why t) :
    Avoided why (Trampoline.advance (step grammar) budget t) := by
  induction budget generalizing t with
  | zero => rwa [Trampoline.advance_zero]
  | succ budget ih =>
    cases t with
    | done halt => rwa [Trampoline.advance_done]
    | tail state => exact ih (avoided_step hgrammar h)

/-- A parser without a scan that stops for this reason is never stopped for it. -/
theorem Avoids.not_stopped (hgrammar : ∀ α rule, (grammar α rule).Avoids why S) {parser : Parser R α}
    (h : parser.Avoids why S) (c d : S) : ¬parser.Yields grammar c (.stopped why d) := by
  rintro ⟨budget, ran⟩
  have avoided : State.Avoided why (.tail (.start parser c .done)) := ⟨h, trivial⟩
  have kept := State.avoided_advance hgrammar budget avoided
  rw [run, Trampoline.run] at ran
  cases reached : Trampoline.advance (State.step grammar) budget (.tail (.start parser c .done)) with
  | done halt =>
    rw [reached] at ran kept
    obtain rfl : halt = .stopped why d := Option.some.inj ran
    exact kept rfl
  | tail state =>
    rw [reached] at ran
    cases ran

/-- The machine agrees with direct evaluation, whatever stands behind the parser.

* A run ends as direct evaluation does, or not at all.
* Pending work stands behind the parser that it waits for like any other continuation.
* What stands behind a parser is started exactly once if the run finishes, with exactly the result and the
  cursor that it finished with, and the computation goes on as what stands behind does from there; if the
  run is stopped, be it abandoned or for want of room, it is never started, and all is over.
* A run is stopped if a part of the parser that stops it is reached, whatever encloses that part, and it is
  stopped only if such a scan is reached.
* A parser in which no scan stops a run for some reason is never stopped for it. -/
theorem machine_agrees_with_evaluation (grammar : Grammar R) (parser : Parser R α) (c : S) :
    (∀ halt, parser.Yields grammar c halt ↔ ∃ depth, evaluate grammar depth parser c = some halt) ∧
    (∀ (γ : Type) (rest : Continuation R (Cursor.Point S) α γ) (budget : Nat),
      Trampoline.advance (State.step grammar) budget (.tail (.start parser c rest)) =
        Phase.flatten rest (Trampoline.advance
          (Phase.perform grammar (rest.receive grammar) (State.step grammar)) budget
          (Phase.ofParser parser c))) ∧
    (∀ (C : Type u) (β : Type v) (next : S → Result α → Trampoline C β) (onward : C → Trampoline C β),
      (∀ d result, parser.Yields grammar c (.finished d result) → ∃ needed, ∀ more,
        Phase.handedOver grammar next onward (needed + more) (Phase.ofParser parser c) = [(d, result)] ∧
        Trampoline.advance (Phase.perform grammar next onward) (needed + more) (Phase.ofParser parser c) =
          Phase.goOn (Trampoline.advance onward more (next d result))) ∧
      (∀ why d, parser.Yields grammar c (.stopped why d) →
        (∀ budget, Phase.handedOver grammar next onward budget (Phase.ofParser parser c) = []) ∧
        ∃ needed, Trampoline.advance (Phase.perform grammar next onward) needed
          (Phase.ofParser parser c) = .done (.error (why, d)))) ∧
    (∀ (β : Type) (part : Parser R β) (why : Stop) (d e : S), parser.Reaches grammar c part d →
      part.Yields grammar d (.stopped why e) → parser.Yields grammar c (.stopped why e)) ∧
    (∀ why e, parser.Yields grammar c (.stopped why e) → ∃ (β : Type) (program : Scan β) (d : S),
      parser.Reaches grammar c (.scan program) d ∧ program.run d = (.error why, e)) ∧
    (∀ why, (∀ β rule, (grammar β rule).Avoids why S) → parser.Avoids why S →
      ∀ d, ¬parser.Yields grammar c (.stopped why d)) := by
  refine ⟨fun halt => yields_iff_evaluate, fun γ rest budget => ?_, fun C β next onward => ⟨?_, ?_⟩,
    fun β part why d e reached stopped => reached.stopped stopped,
    fun why e stopped => yields_stopped_iff.1 stopped,
    fun why hgrammar h d => h.not_stopped hgrammar c d⟩
  · exact Phase.advance_start_eq_flatten budget (Phase.ofParser parser c)
  · rintro d result ⟨budget, ran⟩
    exact Phase.handOver_of_finished ran
  · intro why d stopped
    refine ⟨fun budget => List.eq_nil_iff_forall_not_mem.2 fun handed found => ?_, ?_⟩
    · -- a result that was handed over would be another end of the same run
      cases stopped.unique (Phase.ends_of_mem_handedOver found)
    · obtain ⟨budget, ran⟩ := stopped
      exact ⟨budget, Phase.advance_of_stopped ran⟩

/-- A repetition that abandons the run inside `attempt` and `choice`, and a success that something stands
behind, on the text `a`. -/
theorem machine_agrees_with_evaluation_of_reached :
    (∃ d, (Parser.choice (.attempt (many abandon)) (.lookAhead (unit []))).Yields (α := List Nat)
      Grammar.empty (TextCursor.ofText "a") (.stopped .abandoned d)) ∧
    (∃ d needed, ∀ more, Phase.handedOver Grammar.empty (fun _ _ => .tail 1) (.done (α := Nat))
      (needed + more) (Phase.ofParser (unit 3) (TextCursor.ofText "a")) = [(d, .success 3 0)]) ∧
    (∀ budget, Phase.handedOver Grammar.empty (fun _ _ => .tail 1) (.done (α := Nat))
      budget (Phase.ofParser (abandon (α := Nat)) (TextCursor.ofText "a")) = []) ∧
    (∀ d, ¬(unit 3).Yields Grammar.empty (TextCursor.ofText "a") (.stopped .abandoned d)) := by
  obtain ⟨-, -, -, reached, -⟩ := machine_agrees_with_evaluation.{0, 0} Grammar.empty
    (.choice (.attempt (many abandon)) (.lookAhead (unit ([] : List Nat)))) (TextCursor.ofText "a")
  obtain ⟨-, -, three, -, -, avoided⟩ := machine_agrees_with_evaluation.{0, 0} Grammar.empty
    (unit 3) (TextCursor.ofText "a")
  obtain ⟨-, -, nothing, -⟩ := machine_agrees_with_evaluation.{0, 0} Grammar.empty
    (abandon (α := Nat)) (TextCursor.ofText "a")
  refine ⟨⟨_, reached Nat abandon .abandoned _ _ ⟨6, _, rfl⟩ ⟨1, rfl⟩⟩, ?_, ?_, ?_⟩
  · obtain ⟨needed, h⟩ := (three Nat Nat (fun _ _ => .tail 1) .done).1 _ _ ⟨2, rfl⟩
    exact ⟨_, needed, fun more => (h more).1⟩
  · exact ((nothing Nat Nat (fun _ _ => .tail 1) .done).2 .abandoned _ ⟨1, rfl⟩).1
  · exact avoided .abandoned (fun _ rule => nomatch rule) fun c => by simp [Scan.succeed, Scan.run]

end Parsing.Parser
