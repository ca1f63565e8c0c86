import Parsing.Proofs.Machine.Handover
import Parsing.Proofs.Parser.Reporting

/-!
# Parsers that are built from the primitive ones

The scans of primitive parsers are plain: they look at characters and consume them, and then they fail where they
started or succeed where they are, unless they just stop the run. So what is true of such scans is true of every
parser that is built from primitive ones by operations and combinators, however it is built: it reports no
positions of its own, and it stops the run for no reason that its primitive parsers do not have.
-/

namespace Parsing

open Parsing.Parser

variable {R : Type → Type} {S : Type} [Cursor S] {α β γ : Type}

namespace Scan

/-- Scans, one for each place to start, that look at characters and consume them. They fail where they started,
or they succeed where they are, which they may know to be where they started if they are still untouched: if they
have consumed nothing. -/
inductive Plain : Bool → (Nat → Scan α) → Prop
  | fails {untouched : Bool} (message : String) : Plain untouched fun start => .finish (.fail message start)
  | stays (value : α) : Plain true fun start => .finish (.success value start)
  | succeeds {untouched : Bool} (value : α) : Plain untouched fun _ => .succeed value
  | peek {untouched : Bool} {next : Option Char → Nat → Scan α} (h : ∀ found, Plain untouched (next found)) :
      Plain untouched fun start => .peek fun found => next found start
  | read {untouched : Bool} {next : Option Char → Nat → Scan α} (h : ∀ found, Plain false (next found)) :
      Plain untouched fun start => .read fun found => next found start

/-- The scans of which primitive parsers are made, with the reasons for which they may stop the run. -/
inductive Primitive (stops : Stop → Prop) : Scan α → Prop
  | position {scan : Nat → Scan α} (h : Plain true scan) : Primitive stops (.position scan)
  | stop {why : Stop} (h : stops why) : Primitive stops (.stop why)

variable {untouched : Bool} {scan other : Nat → Scan α} {program : Scan α} {stops : Stop → Prop} {why : Stop}

/-- Two plain scans make one that decides between them. -/
theorem Plain.ite {p : Prop} [Decidable p] (h : Plain untouched scan) (h' : Plain untouched other) :
    Plain untouched fun start => if p then scan start else other start := by
  by_cases holds : p
  · simpa only [if_pos holds] using h
  · simpa only [if_neg holds] using h'

/-- An exact match is plain. -/
theorem plain_matchChars (expected : String) (chars : List Char) :
    Plain untouched fun start => matchChars expected start chars := by
  induction chars generalizing untouched with
  | nil => exact .succeeds expected
  | cons char rest ih => exact .peek fun found => .ite (.read fun _ => ih) (.fails _)

/-- Reading a block is plain. -/
theorem plain_takeChars (count : Nat) (newestFirst : List Char) :
    Plain untouched fun start => takeChars start count newestFirst := by
  induction count generalizing untouched newestFirst with
  | zero => exact .succeeds _
  | succ count ih =>
    apply Plain.read
    intro found
    cases found with
    | none => exact .fails _
    | some char => exact ih (char :: newestFirst)

/-- A plain scan claims only where it is, or where it started as long as that is the same. -/
theorem Plain.stamps (h : Plain untouched scan) (start : Nat) :
    (scan start).StampsAfter (cond untouched (some start) none) := by
  induction h with
  | fails message => trivial
  | stays value => rfl
  | succeeds value => exact fun _ => rfl
  | peek h ih => exact ih
  | read h ih => exact ih

/-- A success claims to have reached the place where it leaves the cursor. -/
theorem Primitive.stamps (h : program.Primitive stops) : program.Stamps := by
  cases h with
  | position h => exact h.stamps
  | stop _ => trivial

/-- A plain scan reports only where it started and where it is. -/
theorem Plain.cites (h : Plain untouched scan) (start : Nat) : (scan start).CitesAfter [start] := by
  induction h with
  | fails message => exact fun _ known => known
  | stays value => exact fun _ known => known
  | succeeds value => exact fun _ _ known => List.mem_append_left [start] known
  | peek h ih => exact ih
  | read h ih => exact ih

/-- All positions that are reported are where the scan started or where it leaves the cursor. -/
theorem Primitive.cites (h : program.Primitive stops) : program.Cites := by
  cases h with
  | position h => exact h.cites
  | stop _ => trivial

/-- A plain scan never stops the run. -/
theorem Plain.run_ne_error (h : Plain untouched scan) (start : Nat) (c : S) :
    ((scan start).run c).1 ≠ .error why := by
  induction h generalizing c with
  | fails message => exact nofun
  | stays value => exact nofun
  | succeeds value => exact nofun
  | peek h ih => exact ih _ _
  | read h ih => exact ih _ _

/-- A primitive parser stops the run for its own reasons only. -/
theorem Primitive.run_ne_error (h : program.Primitive stops) (never : ¬stops why) (c : S) :
    (program.run c).1 ≠ .error why := by
  cases h with
  | position h => exact h.run_ne_error _ c
  | stop known =>
    rintro ⟨⟩
    exact never known

end Scan

namespace Parser

/-- The parser is built from primitive ones, which stop the run for these reasons only. -/
structure Standard (stops : Stop → Prop) (parser : Parser R α) : Prop where
  primitive : parser.EachScan (Scan.Primitive stops)

variable {stops : Stop → Prop} {why : Stop}

/-! ## Primitive parsers -/

/-- To succeed at once is standard. -/
theorem standard_unit (value : α) : (unit value : Parser R α).Standard stops := ⟨.position (.stays value)⟩

/-- To fail at once is standard. -/
theorem standard_fail (message : String) : (fail message : Parser R α).Standard stops :=
  ⟨.position (.fails message)⟩

/-- To give up the run is standard, if this is a reason to stop. -/
theorem standard_abandon (h : stops .abandoned) : (abandon : Parser R α).Standard stops := ⟨.stop h⟩

/-- To look at one character, and then to fail or to succeed with it consumed or not, is standard. -/
theorem standard_peek {next : Option Char → Nat → Scan α} (h : ∀ found, Scan.Plain true (next found)) :
    (scan (.position fun start => .peek fun found => next found start) : Parser R α).Standard stops :=
  ⟨.position (.peek h)⟩

/-- To match one character is standard. -/
theorem standard_satisfy (accepts : Char → Bool) (message : Option Char → String) :
    (satisfy accepts message : Parser R Char).Standard stops := by
  apply standard_peek
  intro found
  cases found with
  | none => exact .fails _
  | some char => exact .ite (.read fun _ => .succeeds char) (.fails _)

/-- To match one of some characters is standard. -/
theorem standard_oneOf (chars : String) : (oneOf chars : Parser R Char).Standard stops := standard_satisfy _ _

/-- To match a character that is not among some is standard. -/
theorem standard_noneOf (chars : String) : (noneOf chars : Parser R Char).Standard stops := standard_satisfy _ _

/-- To match the end of the document is standard. -/
theorem standard_endOfFile : (endOfFile : Parser R Unit).Standard stops := by
  apply standard_peek
  intro found
  cases found with
  | none => exact .stays ()
  | some char => exact .fails _

/-- To match a text is standard. -/
theorem standard_literal (expected : String) : (literal expected : Parser R String).Standard stops :=
  ⟨.position (Scan.plain_matchChars expected _)⟩

/-- To ask for room is standard, if there is the room or the want of it is a reason to stop. -/
theorem Standard.withRoom {parser : Parser R α} (h : parser.Standard stops) {bytes : Nat}
    (fits : bytes ≤ maxRoom ∨ stops .overflow) : (parser.withRoom bytes).Standard stops := by
  rw [Parser.withRoom]
  split
  · exact h
  · next lacks => exact ⟨.stop (fits.resolve_left lacks)⟩

/-- To match a block of characters is standard, if there is room for it or the want of room is a reason to
stop. -/
theorem standard_characters {count : Nat} (fits : count ≤ maxRoom ∨ stops .overflow) :
    (characters count : Parser R String).Standard stops :=
  have block : (scan (.position fun start => takeChars start count []) : Parser R String).Standard stops :=
    ⟨.position (Scan.plain_takeChars count [])⟩
  ⟨(block.withRoom fits).primitive⟩

/-! ## Operations and combinators -/

/-- To call a rule is standard, whatever the rule stands for. -/
theorem standard_call (rule : R α) : (call rule).Standard stops := ⟨trivial⟩

namespace Standard

variable {parser : Parser R α} {other : Parser R β}

/-- A sequence of standard parsers is standard. -/
theorem bind (h : parser.Standard stops) {next : α → Parser R β} (rest : ∀ value, (next value).Standard stops) :
    (Parser.bind parser next).Standard stops :=
  ⟨h.primitive, fun value => (rest value).primitive⟩

/-- A standard parser stays so if its value is changed. -/
theorem map (f : α → β) (h : parser.Standard stops) : (Parser.map f parser).Standard stops := ⟨h.primitive⟩

/-- A choice between standard parsers is standard. -/
theorem choice {second : Parser R α} (h : parser.Standard stops) (h' : second.Standard stops) :
    (Parser.choice parser second).Standard stops :=
  ⟨h.primitive, h'.primitive⟩

/-- A standard parser can be attempted. -/
theorem attempt (h : parser.Standard stops) : (Parser.attempt parser).Standard stops := ⟨h.primitive⟩

/-- A standard parser can look ahead. -/
theorem lookAhead (h : parser.Standard stops) : (Parser.lookAhead parser).Standard stops := ⟨h.primitive⟩

/-- A standard item can be repeated. -/
theorem collect {item : Parser R (Option α)} (h : item.Standard stops) (newestFirst : List α) :
    (Parser.collect item newestFirst).Standard stops :=
  ⟨h.primitive⟩

/-- A sequence of two standard parsers is standard, with the second value. -/
theorem chain (h : parser.Standard stops) (h' : other.Standard stops) : (parser.chain other).Standard stops :=
  h.bind fun _ => h'

/-- A sequence of two standard parsers is standard, with the first value. -/
theorem left (h : parser.Standard stops) (h' : other.Standard stops) : (parser.left other).Standard stops :=
  h.bind fun value => h'.map fun _ => value

/-- A sequence of two standard parsers is standard, with both values. -/
theorem pair (h : parser.Standard stops) (h' : other.Standard stops) : (parser.pair other).Standard stops :=
  h.bind fun value => h'.map (value, ·)

/-- A standard parser in standard brackets is standard. -/
theorem enclosedBy {closing : Parser R γ} (h : parser.Standard stops) (opened : other.Standard stops)
    (closed : closing.Standard stops) : (parser.enclosedBy other closing).Standard stops :=
  opened.chain (h.left closed)

/-- A choice between any number of standard parsers is standard. -/
theorem choices {parsers : List (Parser R α)} (h : ∀ parser ∈ parsers, parser.Standard stops) :
    (Parser.choices parsers).Standard stops := by
  have rest (first : Parser R α) (hfirst : first.Standard stops) (more : List (Parser R α))
      (hmore : ∀ parser ∈ more, parser.Standard stops) : (more.foldl Parser.choice first).Standard stops := by
    induction more generalizing first with
    | nil => exact hfirst
    | cons second more ih =>
      obtain ⟨hsecond, hmore⟩ := List.forall_mem_cons.1 hmore
      exact ih (Parser.choice first second) (hfirst.choice hsecond) hmore
  cases parsers with
  | nil => exact standard_fail _
  | cons first more =>
    obtain ⟨hfirst, hmore⟩ := List.forall_mem_cons.1 h
    exact rest first hfirst more hmore

/-- A standard parser may be missing. -/
theorem optional (h : parser.Standard stops) : (Parser.optional parser).Standard stops :=
  (h.map some).choice (standard_unit none)

/-- A standard parser may be missing, and go back. -/
theorem tryItem (h : parser.Standard stops) : (Parser.tryItem parser).Standard stops :=
  (h.map some).attempt.choice (standard_unit none)

/-- A standard parser can be repeated as often as possible. -/
theorem many (h : parser.Standard stops) : parser.many.Standard stops := h.tryItem.collect []

/-- A standard parser can be repeated as often as possible, and at least once. -/
theorem many1 (h : parser.Standard stops) : parser.many1.Standard stops :=
  h.bind fun first => h.tryItem.collect [first]

/-- A standard parser can be repeated with a standard separator. -/
theorem separatedBy (h : parser.Standard stops) (h' : other.Standard stops) :
    (parser.separatedBy other).Standard stops := by
  apply h.tryItem.bind
  intro found
  cases found with
  | none => exact standard_unit []
  | some value => exact (h'.chain h).tryItem.collect [value]

/-- A standard parser can be repeated up to a standard delimiter. -/
theorem manyTill (h : parser.Standard stops) (h' : other.Standard stops) :
    (parser.manyTill other).Standard stops :=
  ((h'.map _).choice (h.map some)).collect []

/-- A standard parser can be repeated a number of times, if there is room for the values or the want of room is
a reason to stop. -/
theorem replicate (h : parser.Standard stops) {size count : Nat}
    (fits : count * size ≤ maxRoom ∨ stops .overflow) : (parser.replicate size count).Standard stops := by
  have after (newestFirst : List α) : (parser.repeatAfter newestFirst count).Standard stops := by
    clear fits
    induction count generalizing newestFirst with
    | zero => exact standard_unit _
    | succ count ih => exact h.bind fun value => ih (value :: newestFirst)
  exact (after []).withRoom fits

/-- It reports no positions of its own. -/
theorem reports (h : parser.Standard stops) : parser.Reports :=
  ⟨h.primitive.mono fun _ primitive => primitive.stamps, h.primitive.mono fun _ primitive => primitive.cites⟩

/-- It stops the run for no other reason, whatever the cursor is. -/
theorem avoids (h : parser.Standard stops) (never : ¬stops why) : parser.Avoids why S := by
  obtain ⟨h⟩ := h
  induction parser with
  | scan program => exact h.run_ne_error never
  | bind first next ihfirst ihnext => exact ⟨ihfirst h.1, fun value => ihnext value (h.2 value)⟩
  | choice first second ihfirst ihsecond => exact ⟨ihfirst h.1, ihsecond h.2⟩
  | call rule => trivial
  | map _ _ ih | attempt _ ih | lookAhead _ ih | collect _ _ ih => exact ih h

end Standard

/-- An exact match reports no positions of its own. -/
theorem reports_literal (expected : String) : (literal expected : Parser R String).Reports :=
  (standard_literal expected : (literal expected : Parser R String).Standard fun _ => False).reports

end Parser

end Parsing
