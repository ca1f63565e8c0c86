import Parsing.Parser.Combinator
import Parsing.Proofs.Cursor.Forward

/-!
# What scans may report

A result holds positions: the one that a success claims to have reached, and those of failures. A scan knows
positions only from the cursor, but nothing keeps it from making up others. Two properties say that it does
not. Each of them is read off the questions that the scan asks, whatever the answers are.

* A scan *cites* if all positions it reports were told by the cursor.
* A scan *stamps* if the position of a success is the one that was told last, with nothing consumed since.
-/

namespace Parsing

open Parsing.Parser

variable {R : Type → Type} {S : Type} [Cursor S] {α β γ : Type}

/-- The positions in a result. -/
def Result.places : Result α → List Nat
  | success _ position => [position]
  | failure failures => failures.toList.map Failure.position

namespace Result

/-- The positions of a result do not depend on its value. -/
@[simp] theorem places_map (f : α → β) (result : Result α) : (result.map f).places = result.places := by
  cases result <;> rfl

/-- Failures that are put in front bring their positions along. -/
theorem mem_places_after {failures : Failures} {result : Result α} {place : Nat}
    (h : place ∈ (result.after failures).places) :
    place ∈ (failure failures : Result α).places ∨ place ∈ result.places := by
  cases result with
  | success value position => exact .inr h
  | failure later =>
    change place ∈ (failures ++ later).toList.map Failure.position at h
    rw [Failures.toList_append, List.map_append] at h
    exact List.mem_append.1 h

end Result

namespace Scan

/-- All positions in results were told by the cursor, or are among those given. -/
def CitesAfter : List Nat → Scan α → Prop
  | told, finish result => ∀ place ∈ result.places, place ∈ told
  | _, stop _ => True
  | told, peek next => ∀ found, CitesAfter told (next found)
  | told, read next => ∀ found, CitesAfter told (next found)
  | told, position next => ∀ here, CitesAfter (here :: told) (next here)

/-- A success claims the position that was told last with nothing consumed since, or the one given. -/
def StampsAfter : Option Nat → Scan α → Prop
  | told, finish result => match result with
    | .success _ place => told = some place
    | .failure _ => True
  | _, stop _ => True
  | told, peek next => ∀ found, StampsAfter told (next found)
  | _, read next => ∀ found, StampsAfter none (next found)
  | _, position next => ∀ here, StampsAfter (some here) (next here)

/-- All positions that the scan reports were told by the cursor. -/
def Cites (program : Scan α) : Prop := program.CitesAfter []

/-- A success claims the position that was told last, with nothing consumed since. -/
def Stamps (program : Scan α) : Prop := program.StampsAfter none

end Scan

namespace Cursor.Honours

variable {opens : S → List (Cursor.Point S × Nat) → Prop} {program : Scan α} {c d : S}

/-- A scan that stamps claims the place where it leaves the cursor. -/
theorem position_of_stamps (honours : Cursor.Honours S opens) {told : Option Nat}
    (stamps : program.StampsAfter told) (h : ∀ place, told = some place → place = Cursor.position c)
    {marks : List (Cursor.Point S × Nat)} (opened : opens c marks) {value : α} {position : Nat}
    (ran : program.run c = (.ok (.success value position), d)) : position = Cursor.position d := by
  induction program generalizing c told with
  | finish result =>
    cases ran
    exact h position stamps
  | stop why => cases ran
  | peek next ih =>
    obtain ⟨after, stays⟩ := honours.peek opened
    exact ih _ (stamps _) (fun place known => (h place known).trans stays.symm) after ran
  | read next ih => exact ih _ (stamps _) (fun place known => by cases known) (honours.read opened).1 ran
  | position next ih => exact ih _ (stamps _) (fun place known => by cases known; rfl) opened ran

/-- A scan that cites reports positions between where it starts and where it leaves the cursor. -/
theorem places_of_cites (honours : Cursor.Honours S opens) {told : List Nat}
    (cites : program.CitesAfter told) {low : Nat} (start : low ≤ Cursor.position c)
    (h : ∀ place ∈ told, low ≤ place ∧ place ≤ Cursor.position c) {marks : List (Cursor.Point S × Nat)}
    (opened : opens c marks) {result : Result α} (ran : program.run c = (.ok result, d)) :
    ∀ place ∈ result.places, low ≤ place ∧ place ≤ Cursor.position d := by
  induction program generalizing c told with
  | finish result =>
    cases ran
    intro place known
    exact h place (cites place known)
  | stop why => cases ran
  | peek next ih =>
    obtain ⟨after, stays⟩ := honours.peek opened
    exact ih _ (cites _) (stays ▸ start) (stays ▸ h) after ran
  | read next ih =>
    obtain ⟨after, onwards⟩ := honours.read opened
    refine ih _ (cites _) (Nat.le_trans start onwards) (fun place known => ?_) after ran
    obtain ⟨above, below⟩ := h place known
    exact ⟨above, Nat.le_trans below onwards⟩
  | position next ih =>
    refine ih _ (cites _) start ?_ opened ran
    rw [List.forall_mem_cons]
    exact ⟨⟨start, Nat.le_refl _⟩, h⟩

end Cursor.Honours

namespace Parser

/-- A property holds of all scans that a parser is made of, those of rules apart. -/
def EachScan (holds : {β : Type} → Scan β → Prop) : {α : Type} → Parser R α → Prop
  | _, .scan program => holds program
  | _, .bind first next => first.EachScan holds ∧ ∀ value, (next value).EachScan holds
  | _, .map _ parser => parser.EachScan holds
  | _, .choice first second => first.EachScan holds ∧ second.EachScan holds
  | _, .attempt parser => parser.EachScan holds
  | _, .lookAhead parser => parser.EachScan holds
  | _, .call _ => True
  | _, .collect item _ => item.EachScan holds

/-- What holds of all scans holds of those that a parser is made of. -/
theorem EachScan.mono {holds other : {β : Type} → Scan β → Prop} {parser : Parser R α}
    (h : parser.EachScan holds) (implies : ∀ {β : Type} (program : Scan β), holds program → other program) :
    parser.EachScan other := by
  induction parser with
  | scan program => exact implies program h
  | bind first next ihfirst ihnext => exact ⟨ihfirst h.1, fun value => ihnext value (h.2 value)⟩
  | map f parser ih => exact ih h
  | choice first second ihfirst ihsecond => exact ⟨ihfirst h.1, ihsecond h.2⟩
  | attempt parser ih => exact ih h
  | lookAhead parser ih => exact ih h
  | call rule => trivial
  | collect item newestFirst ih => exact ih h

/-- All scans that a parser is made of stamp and cite. -/
structure Reports (parser : Parser R α) : Prop where
  stamps : parser.EachScan Scan.Stamps
  cites : parser.EachScan Scan.Cites

/-- A choice reports no positions of its own if its parts do not. -/
theorem Reports.choice {parser second : Parser R α} (h : parser.Reports) (h' : second.Reports) :
    (Parser.choice parser second).Reports :=
  ⟨⟨h.stamps, h'.stamps⟩, h.cites, h'.cites⟩

end Parser

end Parsing
