import Parsing.Failure

/-!
# Results

What a parser reports about the input it was run on: a value together with the position it claims
to have reached, or the failures of everything it tried. Results of two alternatives are merged by
`Result.merge`. A run may also stop before there is a result, for one of the reasons of `Stop`.
-/

namespace Parsing

/-- The outcome of a parser: a value and the position reached, or failures. -/
inductive Result (α : Type) where
  | success (value : α) (position : Nat)
  | failure (failures : Failures)
  deriving Repr, DecidableEq

/-- Why a run stops before it has a result: it was given up by the parser, or it panicked when room was
asked for that no allocation can give. -/
inductive Stop where
  | abandoned
  | overflow
  deriving Repr, DecidableEq

/-- What is said of a run that stopped. -/
def Stop.message : Stop → String
  | abandoned => "parser finished without producing a result"
  | overflow => "capacity overflow"

namespace Result

variable {α β : Type}

/-- A result with a single failure. -/
def fail (message : String) (position : Nat) : Result α :=
  failure (.single ⟨message, position⟩)

/-- Change the value of a success; position and failures stay. -/
def map (f : α → β) : Result α → Result β
  | success value position => success (f value) position
  | failure failures => failure failures

/-- Whether the parser matched. -/
def isSuccess : Result α → Bool
  | success _ _ => true
  | failure _ => false

/-- The failures, if there are any. -/
def failures? : Result α → Option Failures
  | success _ _ => none
  | failure failures => some failures

/-- Forget the position of a success. -/
def toExcept : Result α → Except Failures α
  | success value _ => .ok value
  | failure failures => .error failures

/-- Merge two alternatives: the earlier success wins, and two failures are listed in order. -/
def merge : Result α → Result α → Result α
  | failure earlier, failure later => failure (earlier ++ later)
  | failure _, success value position => success value position
  | success value position, _ => success value position

/-- Put failures of an earlier alternative in front of the failures of this result. -/
def after (earlier : Failures) : Result α → Result α
  | failure later => failure (earlier ++ later)
  | success value position => success value position

/-- A result whose value is left alone is left alone. -/
@[simp] theorem map_id (r : Result α) : r.map id = r := by cases r <;> rfl

/-- A value can be changed in two steps or in one. -/
@[simp] theorem map_map {γ : Type} (f : α → β) (g : β → γ) (r : Result α) :
    (r.map f).map g = r.map (g ∘ f) := by cases r <;> rfl

/-- A success stays one whatever is made of its value. -/
@[simp] theorem isSuccess_map (f : α → β) (r : Result α) : (r.map f).isSuccess = r.isSuccess := by
  cases r <;> rfl

/-- To merge a failure with a later result is to put its failures in front. -/
theorem failure_merge (earlier : Failures) (r : Result α) :
    (failure earlier).merge r = r.after earlier := by cases r <;> rfl

end Result

end Parsing
