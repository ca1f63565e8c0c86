import Parsing.Proofs.Cursor.Failing
import Parsing.Proofs.Run.Source

/-!
# Locations are exact

The line of a position is told by the newlines before it, and the column by the distance from where that
line begins. Binary search finds how many newlines are before a position, because they are listed in
ascending order. Positions behind the end of the document are on its last line.

What is reported for a parser that fails is located in the whole document, wherever the run began and
ended. Only a cursor that had met a fault before the run finds no newlines when it is asked for them.
-/

namespace Parsing

open Parsing.Parser Bytes

namespace Location

/-- Locations are compared by line, and on the same line by column. -/
theorem lt_iff {a b : Location} : a < b ↔ a.line < b.line ∨ a.line = b.line ∧ a.column < b.column := by
  change (Ord.compare a.line b.line).then (Ord.compare a.column b.column) = .lt ↔ _
  rw [Ordering.then_eq_lt, Nat.compare_eq_lt, Nat.compare_eq_eq, Nat.compare_eq_lt]

end Location

namespace SourceMap

variable {position : Nat} {chars : List Char}

/-- Each newline is listed once. -/
theorem length_newlinesFrom (position : Nat) (chars : List Char) :
    (newlinesFrom position chars).length = chars.count '\n' := by
  induction chars generalizing position with
  | nil => rfl
  | cons char chars ih =>
    rw [newlinesFrom, List.count_cons]
    split
    · next same => simp [ih, same]
    · next other => simp [ih, other]

/-- The positions listed are those of newlines. -/
theorem mem_newlinesFrom_iff {place : Nat} :
    place ∈ newlinesFrom position chars ↔ ∃ index, chars[index]? = some '\n' ∧ place = position + index := by
  induction chars generalizing position with
  | nil => simp [newlinesFrom]
  | cons char chars ih =>
    have later : place ∈ newlinesFrom (position + 1) chars ↔
        ∃ index, (char :: chars)[index + 1]? = some '\n' ∧ place = position + (index + 1) := by
      simp only [ih, List.getElem?_cons_succ, Nat.add_assoc, Nat.add_comm 1]
    rw [newlinesFrom]
    constructor
    · intro found
      split at found
      · next same =>
        rcases List.mem_cons.1 found with rfl | found
        · exact ⟨0, congrArg some same, rfl⟩
        · exact (later.1 found).imp' Nat.succ fun _ h => h
      · exact (later.1 found).imp' Nat.succ fun _ h => h
    · rintro ⟨_ | index, newline, rfl⟩
      · rw [if_pos (Option.some.inj newline)]
        exact List.mem_cons_self
      · have found := later.2 ⟨index, newline, rfl⟩
        split
        · exact List.mem_cons_of_mem _ found
        · exact found

/-- The newlines of two parts are those of the first and then those of the second, behind the first. -/
theorem newlinesFrom_append (position : Nat) (front back : List Char) :
    newlinesFrom position (front ++ back) =
      newlinesFrom position front ++ newlinesFrom (position + front.length) back := by
  induction front generalizing position with
  | nil => rfl
  | cons char front ih =>
    rw [List.cons_append, newlinesFrom, newlinesFrom, ih, List.length_cons, Nat.add_right_comm, Nat.add_assoc]
    split <;> rfl

/-- Newlines are listed in ascending order. -/
theorem pairwise_newlinesFrom (position : Nat) (chars : List Char) :
    (newlinesFrom position chars).Pairwise (· < ·) := by
  induction chars generalizing position with
  | nil => exact .nil
  | cons char chars ih =>
    rw [newlinesFrom]
    split
    · refine .cons (fun place found => ?_) (ih _)
      obtain ⟨index, -, rfl⟩ := mem_newlinesFrom_iff.1 found
      omega
    · exact ih _

/-- What stands in a list that splits into what is before a position and what is not. -/
theorem getD_append_lt_iff {before after : List Nat} (hbefore : ∀ place ∈ before, place < position)
    (hafter : ∀ place ∈ after, position ≤ place) {index : Nat} (inside : index < before.length + after.length) :
    (before ++ after).toArray.getD index 0 < position ↔ index < before.length := by
  have listed : index < (before ++ after).length := by rwa [List.length_append]
  have found : (before ++ after).toArray.getD index 0 = (before ++ after)[index] := by
    simp [Array.getD, inside]
  rw [found]
  by_cases first : index < before.length
  · rw [List.getElem_append_left first]
    exact iff_of_true (hbefore _ (List.getElem_mem first)) first
  · rw [List.getElem_append_right (Nat.not_lt.1 first)]
    exact iff_of_false (Nat.not_lt.2 (hafter _ (List.getElem_mem _))) first

/-- Binary search finds where a list splits into what is before a position and what is not. -/
theorem search_append {before after : List Nat} (hbefore : ∀ place ∈ before, place < position)
    (hafter : ∀ place ∈ after, position ≤ place) (low high : Nat) (hlow : low ≤ before.length)
    (hhigh : before.length ≤ high) (inside : high ≤ before.length + after.length) :
    search (before ++ after).toArray position low high = before.length := by
  fun_induction search (before ++ after).toArray position low high with
  | case1 low high nonempty middle below ih =>
    have := (getD_append_lt_iff hbefore hafter (by omega)).1 below
    exact ih this hhigh inside
  | case2 low high nonempty middle above ih =>
    rw [getD_append_lt_iff hbefore hafter (by omega)] at above
    exact ih hlow (by omega) (by omega)
  | case3 low high empty => omega

/-- The newlines of a document split into those before a position and those that are not. -/
theorem newlines_split (chars : List Char) (position : Nat) :
    newlinesFrom 0 chars = newlinesFrom 0 (chars.take position) ++
      newlinesFrom (chars.take position).length (chars.drop position) ∧
    (∀ place ∈ newlinesFrom 0 (chars.take position), place < position) ∧
    ∀ place ∈ newlinesFrom (chars.take position).length (chars.drop position), position ≤ place := by
  refine ⟨?_, fun place found => ?_, fun place found => ?_⟩
  · rw [← Nat.zero_add (chars.take position).length, ← newlinesFrom_append, List.take_append_drop]
  · obtain ⟨index, newline, rfl⟩ := mem_newlinesFrom_iff.1 found
    have := (List.getElem?_eq_some_iff.1 newline).1
    rw [List.length_take] at this
    omega
  · obtain ⟨index, newline, rfl⟩ := mem_newlinesFrom_iff.1 found
    have := (List.getElem?_eq_some_iff.1 newline).1
    rw [List.length_drop] at this
    rw [List.length_take]
    omega

/-- The search counts the newlines before a position. -/
theorem precedingNewlines_ofChars (chars : List Char) (position : Nat) :
    (ofChars chars).precedingNewlines position = (chars.take position).count '\n' := by
  obtain ⟨split, before, after⟩ := newlines_split chars position
  rw [precedingNewlines, ofChars, split, search_append before after 0 _ (Nat.zero_le _) (by simp) (by simp),
    length_newlinesFrom]

end SourceMap

/-- The line on which a position of a document is begins at `start`: there is the start of the document
or the end of a newline, and no newline from there up to the position. -/
structure LineBegins (chars : List Char) (position start : Nat) : Prop where
  le : start ≤ position
  origin : start = 0 ∨ ∃ previous, start = previous + 1 ∧ chars[previous]? = some '\n'
  sameLine : ∀ index, start ≤ index → index < position → chars[index]? ≠ some '\n'

namespace SourceMap

/-- The newlines before a position. -/
theorem mem_newlinesFrom_take_iff {chars : List Char} {position place : Nat} :
    place ∈ newlinesFrom 0 (chars.take position) ↔ place < position ∧ chars[place]? = some '\n' := by
  rw [mem_newlinesFrom_iff]
  constructor
  · rintro ⟨index, newline, rfl⟩
    rw [Nat.zero_add]
    have inside := (List.getElem?_eq_some_iff.1 newline).1
    rw [List.length_take] at inside
    rw [List.getElem?_take_of_lt (by omega)] at newline
    exact ⟨by omega, newline⟩
  · rintro ⟨before, newline⟩
    exact ⟨place, by rwa [List.getElem?_take_of_lt before], (Nat.zero_add place).symm⟩

/-- If no newline is before a position its line begins with the document, and otherwise behind the last such
newline, which is listed. -/
theorem lineBegins_ofChars (chars : List Char) (position : Nat) :
    ((ofChars chars).precedingNewlines position = 0 → LineBegins chars position 0) ∧
    ∀ count, (ofChars chars).precedingNewlines position = count + 1 →
      count < (ofChars chars).newlines.size ∧
      LineBegins chars position ((ofChars chars).newlines.getD count 0 + 1) := by
  obtain ⟨split, -, -⟩ := newlines_split chars position
  have counted := precedingNewlines_ofChars chars position
  rw [← length_newlinesFrom 0] at counted
  rw [counted]
  have ascending := pairwise_newlinesFrom 0 (chars.take position)
  have known (place : Nat) (found : place ∈ newlinesFrom 0 (chars.take position)) :=
    mem_newlinesFrom_take_iff.1 found
  have listed (place : Nat) (before : place < position) (newline : chars[place]? = some '\n') :=
    mem_newlinesFrom_take_iff.2 ⟨before, newline⟩
  rw [ofChars, split]
  -- only the newlines in front matter, and the last of these is where the search ends
  generalize newlinesFrom 0 (chars.take position) = front at ascending known listed ⊢
  generalize newlinesFrom (chars.take position).length (chars.drop position) = back
  rcases List.eq_nil_or_concat front with rfl | ⟨earlier, last, rfl⟩
  · exact ⟨fun _ => ⟨Nat.zero_le _, .inl rfl, fun index _ before newline => nomatch listed index before newline⟩,
      nofun⟩
  · rw [List.concat_eq_append] at ascending known listed ⊢
    rw [List.length_append, List.length_singleton]
    refine ⟨nofun, fun count same => ?_⟩
    obtain rfl : earlier.length = count := Nat.succ.inj same
    have place : ((earlier ++ [last]) ++ back).toArray.getD earlier.length 0 = last := by simp [Array.getD]
    obtain ⟨before, newline⟩ := known last (by simp)
    rw [place]
    refine ⟨by simp, before, .inr ⟨last, rfl, newline⟩, fun index behind before newline => ?_⟩
    rcases List.mem_append.1 (listed index before newline) with found | found
    · have := (List.pairwise_append.1 ascending).2.2 index found last (List.mem_singleton_self last)
      omega
    · have := List.mem_singleton.1 found
      omega

/-- The line is the number of newlines before the position, counted from one, and the column is the
distance from where that line begins. -/
theorem locate_ofChars (chars : List Char) (position : Nat) :
    ((ofChars chars).locate position).line = 1 + (chars.take position).count '\n' ∧
      ∃ start, LineBegins chars position start ∧ start + ((ofChars chars).locate position).column = position := by
  obtain ⟨first, later⟩ := lineBegins_ofChars chars position
  rw [← precedingNewlines_ofChars, locate]
  cases counted : (ofChars chars).precedingNewlines position with
  | zero => exact ⟨rfl, 0, first counted, Nat.zero_add position⟩
  | succ count =>
    have begins := (later count counted).2
    have := begins.le
    exact ⟨Nat.add_comm (count + 1) 1, _, begins, by simp only; omega⟩

/-- Without newlines everything is on the first line. -/
theorem locate_empty (position : Nat) : (ofText "").locate position = ⟨1, position⟩ := by
  have none : (ofText "").precedingNewlines position = 0 := by
    rw [ofText, precedingNewlines_ofChars]
    simp
  rw [locate, none]

end SourceMap

variable {chars : List Char} {p q : Nat}

/-- Further positions on the same line have the same beginning of the line. -/
theorem LineBegins.eq_of_count_eq {start later : Nat} (h : LineBegins chars p start)
    (h' : LineBegins chars q later) (before : p ≤ q)
    (same : (chars.take p).count '\n' = (chars.take q).count '\n') : start = later := by
  rcases Nat.lt_trichotomy start later with less | equal | greater
  · rcases h'.origin with rfl | ⟨previous, rfl, newline⟩
    · exact absurd less (Nat.not_lt_zero _)
    · -- a newline before `p` is on the wrong line, and one between `p` and `q` would be counted
      have between : p ≤ previous := Nat.not_lt.1 fun inside =>
        h.sameLine previous (Nat.lt_succ_iff.1 less) inside newline
      have counted : '\n' ∈ (chars.drop p).take (q - p) := by
        refine List.mem_iff_getElem?.2 ⟨previous - p, ?_⟩
        have := h'.le
        rw [List.getElem?_take_of_lt (by omega), List.getElem?_drop, Nat.add_sub_cancel' between, newline]
      rw [← Nat.add_sub_cancel' before, List.take_add, List.count_append] at same
      have := List.count_pos_iff.2 counted
      omega
  · exact equal
  · rcases h.origin with rfl | ⟨previous, rfl, newline⟩
    · exact absurd greater (Nat.not_lt_zero _)
    · exact absurd newline (h'.sameLine previous (Nat.lt_succ_iff.1 greater) (Nat.lt_of_lt_of_le h.le before))

/-- A later position has a later location. -/
theorem SourceMap.locate_lt_locate (chars : List Char) (before : p < q) :
    (ofChars chars).locate p < (ofChars chars).locate q := by
  obtain ⟨line, start, begins, column⟩ := locate_ofChars chars p
  obtain ⟨line', later, begins', column'⟩ := locate_ofChars chars q
  rw [Location.lt_iff, line, line']
  have counts : (chars.take p).count '\n' ≤ (chars.take q).count '\n' :=
    (List.take_sublist_take_left (Nat.le_of_lt before)).count_le _
  rcases Nat.lt_or_eq_of_le counts with more | same
  · exact .inl (Nat.add_lt_add_left more 1)
  · have := begins.eq_of_count_eq begins' (Nat.le_of_lt before) same
    exact .inr ⟨congrArg (1 + ·) same, by omega⟩

/-- Locations determine positions. -/
theorem SourceMap.eq_of_locate_eq (chars : List Char)
    (same : (ofChars chars).locate p = (ofChars chars).locate q) : p = q := by
  rcases Nat.lt_trichotomy p q with before | equal | behind
  · have := Location.lt_iff.1 (locate_lt_locate chars before)
    rw [same] at this
    omega
  · exact equal
  · have := Location.lt_iff.1 (locate_lt_locate chars behind)
    rw [same] at this
    omega

namespace ByteCursor

variable {origin : Source} {stop : Option Fault} {stands : Nat → Reader → Prop} {c d : ByteCursor}

/-- Where no fault has been met none had been met before. -/
theorem Meets.healthy {faults : List Fault} (met : c.Meets faults d) (healthy : d.failed = false) :
    c.failed = false := by
  rw [met.failed, Bool.or_eq_false_iff] at healthy
  exact healthy.1

/-- A look for the newlines that meets no fault finds those of the document, and no fault is behind it. -/
theorem Coherent.newlines_of_healthy (h : c.Coherent chars stands) (serves : ServesMoved origin chars stop stands)
    (healthy : c.sourceMap.2.failed = false) : stop = none ∧ c.sourceMap.1 = .ofChars chars := by
  have away : (⟨0, 0⟩ : Point) = .of chars 0 := by simp [Point.of]
  have start : (c.restore ⟨0, 0⟩).Coherent chars stands := away ▸ h.toReliable.restore serves (Nat.zero_le _)
  obtain ⟨_, back⟩ := meets_restore ((c.restore ⟨0, 0⟩).decodeAll []).2 c.mark
  obtain ⟨_, scan⟩ := meets_decodeAll (c.restore ⟨0, 0⟩) []
  have scanned := back.healthy healthy
  have fresh := scan.healthy scanned
  have hphysical : (c.restore ⟨0, 0⟩).physical = offsetOf chars 0 := by
    rcases start.ahead fresh with ⟨-, hphysical⟩ | ⟨char, -, other, -⟩
    · exact hphysical
    · cases other
  rcases serves.decodeAll 0 _ (Nat.zero_le _) [] fresh (start.stands fresh) hphysical with
    ⟨failed, -⟩ | ⟨reader, physical, hall, -⟩
  · cases failed.symm.trans scanned
  rw [sourceMap_eq, hall]
  rw [hall] at scanned
  cases stop with
  | none => exact ⟨rfl, rfl⟩
  | some fault => cases scanned

/-- A fault that has been met has not been taken. -/
def FaultKept (c : ByteCursor) : Prop := c.fault = none → c.failed = false

/-- Faults that are met are kept. -/
theorem Meets.faultKept {faults : List Fault} (met : c.Meets faults d) (h : c.FaultKept) : d.FaultKept := by
  intro none
  rw [met.fault, Option.or_eq_none_iff, List.getLast?_eq_none_iff] at none
  rw [met.failed, h none.1, none.2]
  rfl

end ByteCursor

section

variable {R : Type → Type} {α : Type} {grammar : Grammar R} {budget : Nat} {parser : Parser R α}
  {located : List LocatedFailure}

/-- Each failure is located by this map. -/
def LocatedBy (map : SourceMap) (located : List LocatedFailure) : Prop :=
  ∀ failure ∈ located, failure.location = map.locate failure.position

/-- Failures are located by the newlines that they are located with. -/
theorem Failures.locatedBy_locate (failures : Failures) (map : SourceMap) :
    LocatedBy map (failures.locate map) := by
  intro failure found
  obtain ⟨cause, -, rfl⟩ := List.mem_map.1 found
  rfl

/-- Failures on a text are located in the text. -/
theorem TextCursor.locatedBy_of_parse {text : String} {points : List TextCursor.Point} {c after : TextCursor}
    (reached : Cursor.Reached (ofText text) points c)
    (reported : parse grammar budget parser c = some (.error (.mismatch located), after)) :
    LocatedBy (.ofText text) located := by
  obtain ⟨failures, d, e, map, g, ran, here, scanned, -, rfl⟩ := exists_failures_of_parse reported
  obtain ⟨-, rfl⟩ := Prod.mk.inj here
  obtain ⟨rfl, -⟩ := Prod.mk.inj scanned
  have closed := closed_standing text.toList
  have start : ∃ index ≤ text.toList.length, ofText text = .standing text.toList index :=
    ⟨0, Nat.zero_le _, ofText_eq_standing text⟩
  have stands : ∃ index ≤ text.toList.length, d = .standing text.toList index :=
    closed.run ran (closed.reached start reached).1
  obtain ⟨index, -, standing⟩ := stands
  have whole : d.document = text := by rw [standing, TextCursor.standing, String.ofList_toList]
  exact whole ▸ failures.locatedBy_locate _

/-- Failures on a source are located in all that the source holds, if no fault has been met before the
run, and otherwise on the first line. -/
theorem ByteCursor.locatedBy_of_parse {source : Source} {capacity : Nat} {points : List Point}
    {c after : ByteCursor} (reached : Cursor.Reached (ofSource source capacity) points c)
    (reported : parse grammar budget parser c = some (.error (.mismatch located), after)) :
    (c.failed = false → ∃ text, source.delivering.Holds text ∧ LocatedBy (.ofText text) located) ∧
      (c.failed = true → LocatedBy (.ofText "") located) := by
  obtain ⟨failures, d, e, map, g, ran, here, scanned, there, rfl⟩ := exists_failures_of_parse reported
  obtain ⟨chars, stop, hdoc⟩ := source.delivering.exists_decodes
  obtain ⟨stands, serves, fresh⟩ := exists_servesMoved hdoc
  have closed := Coherent.closed serves
  have coherent := (closed.reached (coherent_ofSource fresh capacity) reached).1
  obtain ⟨dnone, rfl⟩ := Prod.mk.inj here
  obtain ⟨rfl, rfl⟩ := Prod.mk.inj scanned
  have gnone : (Cursor.sourceMap (Cursor.takeFault d).2).2.fault = none := (Prod.mk.inj there).1
  have before : d.Coherent chars stands := closed.run ran coherent
  have asked : (Cursor.takeFault d).2.Coherent chars stands := closed.takeFault before
  obtain ⟨_, scan⟩ := meets_sourceMap (Cursor.takeFault d).2
  constructor
  · intro healthy
    -- no run takes a fault, so a fault met in the run or in the scan would have been reported
    have keeps := keeps_of_meets fun met (h : FaultKept _) => met.faultKept h
    have kept : d.FaultKept := keeps.run ran fun _ => healthy
    have scanned : (Cursor.sourceMap (Cursor.takeFault d).2).2.FaultKept := scan.faultKept fun _ => kept dnone
    obtain ⟨rfl, found⟩ := asked.newlines_of_healthy serves (scanned gnone)
    refine ⟨_, hdoc.holds, ?_⟩
    rw [SourceMap.ofText, String.toList_ofList, ← found]
    exact failures.locatedBy_locate _
  · intro failed
    have broken : (Cursor.takeFault d).2.failed = true :=
      (keeps_of_meets fun met (h : ByteCursor.failed _ = true) => met.failed_of_failed h).run ran failed
    have nothing := (Broken.sourceMap ⟨broken, asked.broken broken⟩).1
    rw [show SourceMap.ofText "" = ⟨#[]⟩ from rfl, ← nothing]
    exact failures.locatedBy_locate _

/-- Locations are exact.

* The line of a position, be it behind the end or not, is told by the newlines before it, and the column
  is the distance from where that line begins. What is subtracted for the column is never more than the
  position.
* A later position has a later location, so locations determine positions.
* Every failure that is reported on a text is located in the text, from wherever a cursor can come to be.
* Every failure that is reported on a source is located in all that the source holds, unless a fault had
  been met before the run; then there are no newlines, and every failure is located on the first line. -/
theorem locations_are_exact (grammar : Grammar R) (budget : Nat) (parser : Parser R α) :
    (∀ (text : String) (position : Nat),
      ((SourceMap.ofText text).locate position).line = 1 + (text.toList.take position).count '\n' ∧
      (∃ start, LineBegins text.toList position start ∧
        start + ((SourceMap.ofText text).locate position).column = position) ∧
      ∀ count, (SourceMap.ofText text).precedingNewlines position = count + 1 →
        count < (SourceMap.ofText text).newlines.size ∧
        (SourceMap.ofText text).newlines.getD count 0 + 1 ≤ position) ∧
    (∀ (text : String) (p q : Nat),
      (p < q → (SourceMap.ofText text).locate p < (SourceMap.ofText text).locate q) ∧
      ((SourceMap.ofText text).locate p = (SourceMap.ofText text).locate q → p = q)) ∧
    (∀ text points c located after, Cursor.Reached (TextCursor.ofText text) points c →
      parse grammar budget parser c = some (.error (.mismatch located), after) →
      LocatedBy (.ofText text) located) ∧
    (∀ source capacity points c located after, Cursor.Reached (ByteCursor.ofSource source capacity) points c →
      parse grammar budget parser c = some (.error (.mismatch located), after) →
      (c.failed = false → ∃ text, source.delivering.Holds text ∧ LocatedBy (.ofText text) located) ∧
      (c.failed = true → ∀ failure ∈ located, failure.location = ⟨1, failure.position⟩)) := by
  refine ⟨fun text position => ?_, fun text p q => ⟨?_, ?_⟩, ?_, ?_⟩
  · obtain ⟨line, column⟩ := SourceMap.locate_ofChars text.toList position
    refine ⟨line, column, fun count many => ?_⟩
    obtain ⟨listed, begins⟩ := (SourceMap.lineBegins_ofChars text.toList position).2 count many
    exact ⟨listed, begins.le⟩
  · exact SourceMap.locate_lt_locate text.toList
  · exact SourceMap.eq_of_locate_eq text.toList
  · intro text points c located after reached reported
    exact TextCursor.locatedBy_of_parse reached reported
  · intro source capacity points c located after reached reported
    obtain ⟨healthy, failed⟩ := ByteCursor.locatedBy_of_parse reached reported
    refine ⟨healthy, fun broken failure found => ?_⟩
    rw [failed broken failure found, SourceMap.locate_empty]

/-- Failures on the second line of a text, on the same line read from a source, and behind a malformed
byte whose fault has been taken. -/
theorem locations_are_exact_second_line :
    let parser : Parser NoRule Unit := .fail "x"
    let located : List LocatedFailure := [⟨"x", 3, ⟨2, 1⟩⟩]
    let text := (Cursor.read (Cursor.read (Cursor.read (TextCursor.ofText "a\nb")).2).2).2
    let bytes := (Cursor.read (Cursor.read (Cursor.read (ByteCursor.ofText "a\nb")).2).2).2
    let broken := (Cursor.takeFault (Cursor.read (Cursor.read
      (ByteCursor.ofSource (.ofBytes #[0x0a, 0xff]) 8)).2).2).2
    (SourceMap.ofText "a\nb").locate 2 < (SourceMap.ofText "a\nb").locate 3 ∧
      (parse .empty 9 parser text).map Prod.fst = some (.error (.mismatch located)) ∧
      LocatedBy (.ofText "a\nb") located ∧
      (parse .empty 9 parser bytes).map Prod.fst = some (.error (.mismatch located)) ∧ bytes.failed = false ∧
      (∃ whole, (Source.delivering (.ofBytes "a\nb".toUTF8.data)).Holds whole ∧
        LocatedBy (.ofText whole) located) ∧
      (parse .empty 9 parser broken).map Prod.fst = some (.error (.mismatch [⟨"x", 1, ⟨1, 1⟩⟩])) ∧
      broken.failed = true ∧ ∀ failure ∈ ([⟨"x", 1, ⟨1, 1⟩⟩] : List LocatedFailure),
        failure.location = ⟨1, failure.position⟩ := by
  intro parser located text bytes broken
  obtain ⟨-, order, onText, onBytes⟩ := locations_are_exact .empty 9 parser
  have first : (parse .empty 9 parser text).map Prod.fst = some (.error (.mismatch located)) := by decide +kernel
  have second : (parse .empty 9 parser bytes).map Prod.fst = some (.error (.mismatch located)) := by
    decide +kernel
  have third : (parse .empty 9 parser broken).map Prod.fst = some (.error (.mismatch [⟨"x", 1, ⟨1, 1⟩⟩])) := by
    decide +kernel
  obtain ⟨⟨_, after⟩, reported, rfl⟩ := Option.map_eq_some_iff.1 first
  obtain ⟨⟨_, after'⟩, reported', rfl⟩ := Option.map_eq_some_iff.1 second
  obtain ⟨⟨_, last⟩, reported'', rfl⟩ := Option.map_eq_some_iff.1 third
  have healthy : bytes.failed = false := by decide +kernel
  have failed : broken.failed = true := by decide +kernel
  exact ⟨(order "a\nb" 2 3).1 (by decide), first,
    onText _ [] text _ _ Cursor.Reached.start.read.read.read reported, second, healthy,
    (onBytes _ _ [] bytes _ _ Cursor.Reached.start.read.read.read reported').1 healthy, third, failed,
    (onBytes _ _ [] broken _ _ Cursor.Reached.start.read.read.takeFault reported'').2 failed⟩

/-- Behind a fault that has been taken no newlines are found: a failure on the second line is located on
the first. -/
theorem locatedBy_of_taken_fault :
    let source : Source := { Source.ofBytes #[0x61, 0x0a, 0x62] with
      breakdown := some ⟨3, ⟨.other, "broken"⟩⟩ }
    let start := ByteCursor.ofSource source 8192
    let c := (Cursor.takeFault (Cursor.read (Cursor.read (Cursor.read (Cursor.read start).2).2).2).2).2
    source.Holds "a\nb" ∧ Cursor.Reached start [] c ∧ ∃ after,
      parse .empty 9 (.fail "x" : Parser NoRule Unit) c =
        some (.error (.mismatch [⟨"x", 3, ⟨1, 3⟩⟩]), after) ∧
      ¬LocatedBy (.ofText "a\nb") [⟨"x", 3, ⟨1, 3⟩⟩] := by
  intro source start c
  have reported : (parse .empty 9 (.fail "x" : Parser NoRule Unit) c).map Prod.fst =
      some (.error (.mismatch [⟨"x", 3, ⟨1, 3⟩⟩])) := by decide +kernel
  obtain ⟨⟨outcome, after⟩, reported, rfl⟩ := Option.map_eq_some_iff.1 reported
  refine ⟨by decide, Cursor.Reached.start.read.read.read.read.takeFault, after, reported, fun located => ?_⟩
  have there := located _ (List.mem_singleton_self _)
  exact absurd there (by decide +kernel)

end

end Parsing
