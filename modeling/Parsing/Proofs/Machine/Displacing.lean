import Parsing.Proofs.Machine.Halting
import Parsing.Proofs.Parser.Standard

/-!
# Runs further back in a document

A run from the same place of the same text, but with something else in front of it, differs in nothing but its
positions: all of them are further back by as much as there is in front. For this the scans of the parser have
to take positions as they come. A scan that is *relative* only passes on positions told by the cursor, so that
its results are further back if these are.

A displacement of a cursor takes it further back by some distance and commutes with all that parsers ask. Then
it commutes with whole runs: their ends correspond to each other one by one.
-/

namespace Parsing

open Parsing.Parser

variable {R : Type → Type} {S : Type} [Cursor S] {α β : Type} {distance : Nat}

/-- The same failure further back. -/
def Failure.displace (distance : Nat) (failure : Failure) : Failure :=
  { failure with position := distance + failure.position }

/-- The same failures further back. -/
def Failures.displace (distance : Nat) (failures : Failures) : Failures :=
  ⟨failures.first.displace distance, failures.rest.map (Failure.displace distance)⟩

/-- The same result further back. -/
def Result.displace (distance : Nat) : Result α → Result α
  | success value position => success value (distance + position)
  | failure failures => failure (failures.displace distance)

/-- All failures are displaced by the same distance. -/
theorem Failures.toList_displace (failures : Failures) :
    (failures.displace distance).toList = failures.toList.map (Failure.displace distance) := rfl

/-- Failures are displaced whether they are put together before or after. -/
theorem Failures.displace_append (earlier later : Failures) :
    (earlier ++ later).displace distance = earlier.displace distance ++ later.displace distance := by
  apply ext_toList
  rw [toList_append, toList_displace, toList_displace, toList_displace, toList_append, List.map_append]

namespace Result

/-- The value of a displaced result can be changed before or after. -/
theorem displace_map (f : α → β) (result : Result α) :
    (result.map f).displace distance = (result.displace distance).map f := by
  cases result <;> rfl

/-- Earlier failures are displaced with the result. -/
theorem displace_after (earlier : Failures) (result : Result α) :
    (result.after earlier).displace distance = (result.displace distance).after (earlier.displace distance) := by
  cases result with
  | success value position => rfl
  | failure later => exact congrArg failure (Failures.displace_append earlier later)

end Result

namespace Scan

/-- The second scan does further back what the first one does: it reports results that are further back if the
cursor tells positions that are. -/
inductive Displaced (distance : Nat) : Scan α → Scan α → Prop
  | finish (result : Result α) : Displaced distance (.finish result) (.finish (result.displace distance))
  | stop (why : Stop) : Displaced distance (.stop why) (.stop why)
  | peek {next other : Option Char → Scan α} (h : ∀ found, Displaced distance (next found) (other found)) :
      Displaced distance (.peek next) (.peek other)
  | read {next other : Option Char → Scan α} (h : ∀ found, Displaced distance (next found) (other found)) :
      Displaced distance (.read next) (.read other)
  | position {next other : Nat → Scan α}
      (h : ∀ here, Displaced distance (next here) (other (distance + here))) :
      Displaced distance (.position next) (.position other)

/-- The scan only passes on positions told by the cursor: it does further back what it does anywhere. -/
def Relative (program : Scan α) : Prop := ∀ distance, program.Displaced distance program

/-- A plain scan that starts elsewhere reports what it would, but for the distance. -/
theorem Plain.displaced {untouched : Bool} {scan : Nat → Scan α} (h : Plain untouched scan) (start : Nat) :
    (scan start).Displaced distance (scan (distance + start)) := by
  induction h with
  | fails message => exact .finish (.fail message start)
  | stays value => exact .finish (.success value start)
  | succeeds value => exact .position fun here => .finish (.success value here)
  | peek h ih => exact .peek ih
  | read h ih => exact .read ih

/-- The scans of primitive parsers take positions as they come. -/
theorem Primitive.relative {stops : Stop → Prop} {program : Scan α} (h : program.Primitive stops) :
    program.Relative := by
  cases h with
  | position h => exact fun distance => .position h.displaced
  | stop _ => exact fun distance => .stop _

end Scan

/-- Parsers that are built from primitive ones take positions as they come. -/
theorem Parser.Standard.relative {stops : Stop → Prop} {parser : Parser R α} (h : parser.Standard stops) :
    parser.EachScan Scan.Relative :=
  h.primitive.mono fun _ primitive => primitive.relative

/-- Taking cursors and marks further back by some distance, in a way that parsers do not notice except by the
positions. -/
structure Cursor.Displacement (S : Type) [Cursor S] (distance : Nat) where
  cursor : S → S
  point : Cursor.Point S → Cursor.Point S
  position_eq : ∀ c, Cursor.position (cursor c) = distance + Cursor.position c
  peek_eq : ∀ c, Cursor.peek (cursor c) = ((Cursor.peek c).1, cursor (Cursor.peek c).2)
  read_eq : ∀ c, Cursor.read (cursor c) = ((Cursor.read c).1, cursor (Cursor.read c).2)
  mark_eq : ∀ c, Cursor.mark (cursor c) = (point (Cursor.mark c).1, cursor (Cursor.mark c).2)
  restore_eq : ∀ c p, Cursor.restore (cursor c) (point p) = cursor (Cursor.restore c p)
  release_eq : ∀ c p, Cursor.release (cursor c) (point p) = cursor (Cursor.release c p)

namespace Cursor.Displacement

variable (displacement : Cursor.Displacement S distance)

/-- How a run ends further back. -/
def halt : Halt S α → Halt S α
  | .finished c result => .finished (displacement.cursor c) (result.displace distance)
  | .stopped why c => .stopped why (displacement.cursor c)

/-- A relative scan does the same further back. -/
theorem scan {program other : Scan α} (h : program.Displaced distance other) (c : S) :
    other.run (displacement.cursor c) =
      ((program.run c).1.map (Result.displace distance), displacement.cursor (program.run c).2) := by
  induction h generalizing c with
  | finish result => rfl
  | stop why => rfl
  | peek h ih =>
    rw [Scan.run, Scan.run, displacement.peek_eq]
    exact ih _ _
  | read h ih =>
    rw [Scan.run, Scan.run, displacement.read_eq]
    exact ih _ _
  | position h ih =>
    rw [Scan.run, Scan.run, displacement.position_eq]
    exact ih _ _

/-- Two cursors are at the same place exactly if they are further back. -/
theorem position_eq_iff (c d : S) :
    Cursor.position (displacement.cursor d) = Cursor.position (displacement.cursor c) ↔
      Cursor.position d = Cursor.position c := by
  rw [displacement.position_eq, displacement.position_eq, Nat.add_left_cancel_iff]

/-- Earlier failures are displaced with the end of the run. -/
theorem halt_after (earlier : Failures) (last : Halt S α) :
    displacement.halt (last.after earlier) = (displacement.halt last).after (earlier.displace distance) := by
  cases last with
  | finished c result => exact congrArg (Halt.finished _) (Result.displace_after earlier result)
  | stopped why c => rfl

/-- To go on further back is to go on and take the end further back. -/
theorem bind_andThen {first : Option (Halt S α)} {next other : S → Result α → Option (Halt S β)}
    (h : ∀ d result, other (displacement.cursor d) (result.displace distance) =
      (next d result).map displacement.halt) :
    (first.map displacement.halt).bind (·.andThen other) =
      (first.bind (·.andThen next)).map displacement.halt := by
  cases first with
  | none => rfl
  | some halt =>
    cases halt with
    | finished d result => exact h d result
    | stopped why d => rfl

/-- Direct evaluation further back ends as it does otherwise, only further back. -/
theorem evaluate {grammar : Grammar R} (hgrammar : ∀ β rule, (grammar β rule).EachScan Scan.Relative)
    {parser : Parser R α} (relative : parser.EachScan Scan.Relative) (depth : Nat) (c : S) :
    Parser.evaluate grammar depth parser (displacement.cursor c) =
      (Parser.evaluate grammar depth parser c).map displacement.halt := by
  induction depth generalizing α c with
  | zero => rfl
  | succ depth ih =>
    cases parser with
    | scan program =>
      rw [Parser.evaluate, Parser.evaluate, displacement.scan (relative distance)]
      rcases program.run c with ⟨_ | result, d⟩ <;> rfl
    | bind first next =>
      rw [Parser.evaluate, Parser.evaluate, ih relative.1]
      apply displacement.bind_andThen
      intro d result
      cases result with
      | success value position => exact ih (relative.2 value) d
      | failure failures => rfl
    | map f parser =>
      have part : parser.EachScan Scan.Relative := relative
      rw [Parser.evaluate, Parser.evaluate, ih part]
      apply displacement.bind_andThen
      intro d result
      exact congrArg (fun result => some (Halt.finished _ result)) (result.displace_map f).symm
    | choice first second =>
      rw [Parser.evaluate, Parser.evaluate, ih relative.1]
      apply displacement.bind_andThen
      intro d result
      cases result with
      | success value position => rfl
      | failure failures =>
        dsimp only [Result.displace]
        by_cases same : Cursor.position d = Cursor.position c
        · rw [if_pos ((displacement.position_eq_iff c d).2 same), if_pos same, ih relative.2,
            Option.map_map, Option.map_map]
          exact congrArg (Option.map · _) (funext fun last => (displacement.halt_after failures last).symm)
        · rw [if_neg (same ∘ (displacement.position_eq_iff c d).1), if_neg same]
          rfl
    | attempt parser =>
      have part : parser.EachScan Scan.Relative := relative
      rw [Parser.evaluate, Parser.evaluate, displacement.mark_eq]
      dsimp only
      rw [ih part]
      apply displacement.bind_andThen
      intro d result
      cases result with
      | success value position =>
        exact congrArg (fun after => some (Halt.finished after _)) (displacement.release_eq d _)
      | failure failures =>
        exact congrArg (fun after => some (Halt.finished after _)) (displacement.restore_eq d _)
    | lookAhead parser =>
      have part : parser.EachScan Scan.Relative := relative
      rw [Parser.evaluate, Parser.evaluate, displacement.mark_eq]
      dsimp only
      rw [ih part]
      apply displacement.bind_andThen
      intro d result
      cases result with
      | success value position =>
        exact congrArg (fun after => some (Halt.finished after _)) (displacement.restore_eq d _)
      | failure failures =>
        exact congrArg (fun after => some (Halt.finished after _)) (displacement.release_eq d _)
    | call rule => exact ih (hgrammar _ rule) c
    | collect item newestFirst =>
      have round : item.EachScan Scan.Relative := relative
      rw [Parser.evaluate, Parser.evaluate, ih round]
      apply displacement.bind_andThen
      intro d result
      cases result with
      | failure failures => rfl
      | success value position =>
        cases value with
        | none => exact congrArg (fun here => some (Halt.finished _ (.success _ here))) (displacement.position_eq d)
        | some value =>
          dsimp only [Result.displace]
          by_cases same : Cursor.position d = Cursor.position c
          · rw [if_pos ((displacement.position_eq_iff c d).2 same), if_pos same, displacement.position_eq]
            rfl
          · rw [if_neg (same ∘ (displacement.position_eq_iff c d).1), if_neg same]
            have again : (Parser.collect item (value :: newestFirst)).EachScan Scan.Relative := round
            exact ih again d

/-- A run further back comes to an end in one way exactly if the run comes to an end in this way, only not
as far back. -/
theorem yields_iff {grammar : Grammar R} (hgrammar : ∀ β rule, (grammar β rule).EachScan Scan.Relative)
    {parser : Parser R α} (relative : parser.EachScan Scan.Relative) (c : S)
    (further : Halt S α) : parser.Yields grammar (displacement.cursor c) further ↔
      ∃ halt, parser.Yields grammar c halt ∧ displacement.halt halt = further := by
  simp only [yields_iff_evaluate, displacement.evaluate hgrammar relative, Option.map_eq_some_iff]
  constructor
  · rintro ⟨depth, halt, found, same⟩
    exact ⟨halt, ⟨depth, found⟩, same⟩
  · rintro ⟨halt, ⟨depth, found⟩, same⟩
    exact ⟨depth, halt, found, same⟩

/-- A run further back comes to an end if the run does. -/
theorem halts_iff {grammar : Grammar R} (hgrammar : ∀ β rule, (grammar β rule).EachScan Scan.Relative)
    {parser : Parser R α} (relative : parser.EachScan Scan.Relative) (c : S) :
    parser.Halts grammar (displacement.cursor c) ↔ parser.Halts grammar c := by
  constructor
  · rintro ⟨further, ran⟩
    obtain ⟨halt, found, -⟩ := (displacement.yields_iff hgrammar relative c further).1 ran
    exact ⟨halt, found⟩
  · rintro ⟨halt, ran⟩
    exact ⟨_, (displacement.yields_iff hgrammar relative c _).2 ⟨halt, ran, rfl⟩⟩

end Cursor.Displacement

end Parsing
