/-!
# Failures

A failure says what was expected at a position of the document. The failures of all alternatives
that were tried are kept together, in the order they were tried, and there is always at least one.
-/

namespace Parsing

/-- An expected pattern that was not found at a position, counted in characters. -/
structure Failure where
  message : String
  position : Nat
  deriving Repr, DecidableEq, Inhabited

/-- The failures of the alternatives tried, oldest first; never empty. -/
structure Failures where
  first : Failure
  rest : List Failure
  deriving Repr, DecidableEq, Inhabited

namespace Failures

/-- One failure on its own. -/
def single (failure : Failure) : Failures := ⟨failure, []⟩

/-- All failures, oldest first. -/
def toList (failures : Failures) : List Failure := failures.first :: failures.rest

/-- How many failures there are. -/
def size (failures : Failures) : Nat := failures.toList.length

/-- The failures of one alternative followed by those of the next. -/
def append (earlier later : Failures) : Failures := ⟨earlier.first, earlier.rest ++ later.toList⟩

instance : Append Failures := ⟨append⟩

/-- A single failure is listed alone. -/
@[simp] theorem toList_single (failure : Failure) : (single failure).toList = [failure] := rfl

/-- Failures are listed in order. -/
@[simp] theorem toList_append (earlier later : Failures) :
    (earlier ++ later).toList = earlier.toList ++ later.toList := rfl

/-- Failures are determined by their list. -/
theorem ext_toList {a b : Failures} (h : a.toList = b.toList) : a = b := by
  cases a; cases b; simp_all [toList]

/-- It does not matter how failures are put together. -/
theorem append_assoc (a b c : Failures) : a ++ b ++ c = a ++ (b ++ c) :=
  ext_toList (by simp)

/-- There is always a failure. -/
theorem toList_ne_nil (failures : Failures) : failures.toList ≠ [] := List.cons_ne_nil _ _

end Failures

end Parsing
