/-!
# Trampolines

A computation in steps. Each step either delivers the final value or names the call to perform
next, as data. `Trampoline.run` performs pending calls in a loop, so that the depth of a
computation never becomes depth of the native stack. As calls need not come to an end, a budget
bounds how many are performed: a computation that needs more has no value, and a larger budget
never changes a value (`run_of_le`).
-/

namespace Parsing

universe u v

/-- One step of a computation: its value, or the next call. -/
inductive Trampoline (C : Type u) (α : Type v) where
  | done (value : α)
  | tail (call : C)

namespace Trampoline

variable {C : Type u} {α : Type v}

/-- Perform at most `budget` pending calls, `perform` being one of them. -/
def advance (perform : C → Trampoline C α) : Nat → Trampoline C α → Trampoline C α
  | _, done value => done value
  | 0, tail call => tail call
  | budget + 1, tail call => advance perform budget (perform call)

/-- The value of a finished computation. -/
def value? : Trampoline C α → Option α
  | done value => some value
  | tail _ => none

/-- The value of a computation that needs at most `budget` calls. -/
def run (perform : C → Trampoline C α) (budget : Nat) (step : Trampoline C α) : Option α :=
  (advance perform budget step).value?

/-- How a step is shown. -/
def render : Trampoline C α → String
  | done _ => "Done(..)"
  | tail _ => "Tail(..)"

variable (perform : C → Trampoline C α)

/-- What is done stays done. -/
@[simp] theorem advance_done (budget : Nat) (value : α) :
    advance perform budget (done value) = done value := by cases budget <;> rfl

/-- Without a budget nothing is performed. -/
@[simp] theorem advance_zero (step : Trampoline C α) : advance perform 0 step = step := by
  cases step <;> rfl

/-- A call is performed by one step of the budget. -/
@[simp] theorem advance_succ_tail (budget : Nat) (call : C) :
    advance perform (budget + 1) (tail call) = advance perform budget (perform call) := rfl

/-- Two budgets spent one after the other are worth their sum. -/
theorem advance_add (first second : Nat) (step : Trampoline C α) :
    advance perform (first + second) step = advance perform second (advance perform first step) := by
  induction first generalizing step with
  | zero => simp
  | succ first ih =>
    cases step with
    | done => simp
    | tail call => rw [Nat.add_right_comm, advance_succ_tail, advance_succ_tail, ih]

variable {budget : Nat} {step : Trampoline C α} {value : α}

/-- A run with a value has come to its end. -/
theorem advance_of_run (found : run perform budget step = some value) :
    advance perform budget step = done value := by
  unfold run at found
  cases reached : advance perform budget step with
  | done last =>
    rw [reached] at found
    exact congrArg done (Option.some.inj found)
  | tail call =>
    rw [reached] at found
    cases found

/-- A larger budget keeps a value. -/
theorem run_of_le {larger : Nat} (h : budget ≤ larger) (found : run perform budget step = some value) :
    run perform larger step = some value := by
  obtain ⟨more, rfl⟩ := Nat.exists_eq_add_of_le h
  rw [run, advance_add, advance_of_run perform found, advance_done]
  rfl

end Trampoline

end Parsing
