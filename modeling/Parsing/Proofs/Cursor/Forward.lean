import Parsing.Proofs.Cursor.Marks
import Parsing.Proofs.Machine.Finishing

/-!
# Runs go forwards

Inside a run the cursor goes back often, but never behind the place where the run began. All that is needed of
the cursor is that it honours its marks when they are used as a stack. A run leaves the marks that were open
when it began as they were.
-/

namespace Parsing

open Parsing.Parser

variable {R : Type → Type} {S : Type} [Cursor S] {α : Type}
  {opens : S → List (Cursor.Point S × Nat) → Prop}

namespace Cursor.Honours

/-- A scan goes forwards and leaves open marks alone. -/
theorem scan (honours : Cursor.Honours S opens) (program : Scan α) {c : S}
    {marks : List (Cursor.Point S × Nat)} (h : opens c marks) :
    opens (program.run c).2 marks ∧ Cursor.position c ≤ Cursor.position (program.run c).2 := by
  induction program generalizing c with
  | finish result => exact ⟨h, Nat.le_refl _⟩
  | stop why => exact ⟨h, Nat.le_refl _⟩
  | peek next ih =>
    obtain ⟨opened, stays⟩ := honours.peek h
    obtain ⟨after, forwards⟩ := ih (Cursor.peek c).1 opened
    exact ⟨after, stays ▸ forwards⟩
  | read next ih =>
    obtain ⟨opened, onwards⟩ := honours.read h
    obtain ⟨after, forwards⟩ := ih (Cursor.read c).1 opened
    exact ⟨after, Nat.le_trans onwards forwards⟩
  | position next ih => exact ih (Cursor.position c) h

/-- A finished run goes forwards and leaves open marks alone. -/
theorem finishes (honours : Cursor.Honours S opens) {grammar : Grammar R} {parser : Parser R α} {c d : S}
    {result : Result α} (run : Finishes grammar parser c d result) {marks : List (Cursor.Point S × Nat)}
    (h : opens c marks) : opens d marks ∧ Cursor.position c ≤ Cursor.position d := by
  induction run generalizing marks with
  | @scan _ program c d result ran =>
    have scanned := honours.scan program h
    rwa [ran] at scanned
  | bind first rest ihfirst ihrest =>
    obtain ⟨middle, forwards⟩ := ihfirst h
    obtain ⟨after, onwards⟩ := ihrest middle
    exact ⟨after, Nat.le_trans forwards onwards⟩
  | bindFailure first ih => exact ih h
  | map part ih => exact ih h
  | choice first settled ih => exact ih h
  | choiceSecond first same rest ihfirst ihrest =>
    obtain ⟨middle, forwards⟩ := ihfirst h
    obtain ⟨after, onwards⟩ := ihrest middle
    exact ⟨after, Nat.le_trans forwards onwards⟩
  | attempt part ih =>
    obtain ⟨marked, here⟩ := honours.mark h
    obtain ⟨inside, forwards⟩ := ih marked
    obtain ⟨released, stays⟩ := honours.release inside
    exact ⟨released, stays ▸ here ▸ forwards⟩
  | attemptFailure part ih =>
    obtain ⟨inside, -⟩ := ih (honours.mark h).1
    obtain ⟨restored, back⟩ := honours.restore inside
    exact ⟨restored, Nat.le_of_eq back.symm⟩
  | lookAhead part ih =>
    obtain ⟨inside, -⟩ := ih (honours.mark h).1
    obtain ⟨restored, back⟩ := honours.restore inside
    exact ⟨restored, Nat.le_of_eq back.symm⟩
  | lookAheadFailure part ih =>
    obtain ⟨marked, here⟩ := honours.mark h
    obtain ⟨inside, forwards⟩ := ih marked
    obtain ⟨released, stays⟩ := honours.release inside
    exact ⟨released, stays ▸ here ▸ forwards⟩
  | call body ih => exact ih h
  | collectFailure round ih => exact ih h
  | collectNone round ih => exact ih h
  | collectLast round same ih => exact ih h
  | collectMore round moved rest ihround ihrest =>
    obtain ⟨middle, forwards⟩ := ihround h
    obtain ⟨after, onwards⟩ := ihrest middle
    exact ⟨after, Nat.le_trans forwards onwards⟩

/-- A mark that is made before a run is still the newest after it, and a return to it goes back to where the
run began. -/
theorem position_restore (honours : Cursor.Honours S opens) {grammar : Grammar R} {parser : Parser R α}
    {c d : S} {result : Result α} (run : Finishes grammar parser (Cursor.mark c).2 d result)
    {marks : List (Cursor.Point S × Nat)} (h : opens c marks) :
    Cursor.position (Cursor.restore d (Cursor.mark c).1) = Cursor.position c :=
  (honours.restore (honours.finishes run (honours.mark h).1).1).2

end Cursor.Honours

end Parsing
