import Parsing.Cursor.Text
import Parsing.Cursor.Traced
import Parsing.Parser.Combinator
import Parsing.Proofs.Cursor.Placing
import Parsing.Proofs.Machine.Outcome
import Parsing.Proofs.Machine.Simulation

/-!
# How runs use marks

A cursor may rely on its marks being used as a stack. Every run keeps to this: each mark that is made is
used up exactly once, by returning to it or by giving it up, the newest first, and none is left when the
run finishes. A run that is stopped or cut short has merely not used up all of its marks yet.

So it is enough if a cursor honours marks that are used in this way. Then every return to a mark goes back,
and to exactly the place where the mark was made.
-/

namespace Parsing

/-- What may be expected of a cursor whose marks are used as a stack: only reading moves it, and only
forwards, and a return to its newest open mark brings it to the place where that mark was made.
The open marks are listed newest first, each with its place. -/
structure Cursor.Honours (S : Type) [Cursor S] (opens : S → List (Cursor.Point S × Nat) → Prop) :
    Prop where
  peek : ∀ {c marks}, opens c marks →
    opens (Cursor.peek c).2 marks ∧ Cursor.position (Cursor.peek c).2 = Cursor.position c
  read : ∀ {c marks}, opens c marks →
    opens (Cursor.read c).2 marks ∧ Cursor.position c ≤ Cursor.position (Cursor.read c).2
  mark : ∀ {c marks}, opens c marks →
    opens (Cursor.mark c).2 (((Cursor.mark c).1, Cursor.position c) :: marks) ∧
      Cursor.position (Cursor.mark c).2 = Cursor.position c
  restore : ∀ {c point place marks}, opens c ((point, place) :: marks) →
    opens (Cursor.restore c point) marks ∧ Cursor.position (Cursor.restore c point) = place
  release : ∀ {c point place marks}, opens c ((point, place) :: marks) →
    opens (Cursor.release c point) marks ∧
      Cursor.position (Cursor.release c point) = Cursor.position c

namespace TextCursor

/-- The open marks of a text cursor know their places. -/
theorem honours :
    Cursor.Honours TextCursor fun _ (marks : List (Point × Nat)) =>
      ∀ mark ∈ marks, mark.1.position = mark.2 where
  peek known := ⟨known, rfl⟩
  read {c _} known := by
    refine ⟨known, ?_⟩
    change c.position ≤ c.read.2.position
    rw [TextCursor.read]
    split
    · exact Nat.le_refl _
    · exact Nat.le_succ _
  mark known := ⟨List.forall_mem_cons.2 ⟨rfl, known⟩, rfl⟩
  restore known := ⟨(List.forall_mem_cons.1 known).2, (List.forall_mem_cons.1 known).1⟩
  release known := ⟨(List.forall_mem_cons.1 known).2, rfl⟩

end TextCursor

namespace ByteCursor

/-- The open marks of a cursor over bytes know their places, whatever faults are met. -/
theorem honours :
    Cursor.Honours ByteCursor fun _ (marks : List (Point × Nat)) =>
      ∀ mark ∈ marks, mark.1.position = mark.2 where
  peek {c _} known := ⟨known, position_peek c⟩
  read {c _} known := ⟨known, position_le_read c⟩
  mark known := ⟨List.forall_mem_cons.2 ⟨rfl, known⟩, rfl⟩
  restore known := ⟨(List.forall_mem_cons.1 known).2, (List.forall_mem_cons.1 known).1⟩
  release known := ⟨(List.forall_mem_cons.1 known).2, rfl⟩

end ByteCursor

/-- An event as a traced cursor records it, with the number of the mark that it happened to and the position
of the cursor after it. -/
structure NumberedEvent where
  number : Nat
  event : MarkEvent
  after : Nat

namespace NumberedEvent

/-- The number of the mark, if the event is that it was made. -/
def made? (e : NumberedEvent) : Option Nat :=
  match e.event with
  | .made _ => some e.number
  | _ => none

/-- The number of the mark, if the event is that it was used up. -/
def used? (e : NumberedEvent) : Option Nat :=
  match e.event with
  | .made _ => none
  | _ => some e.number

/-- The event is that a mark of this number was made at this place. -/
def Makes (e : NumberedEvent) (number place : Nat) : Prop := e.number = number ∧ e.event = .made place

/-- The event is that the mark of this number, made at this place, was restored or released. -/
def UsesUp (e : NumberedEvent) (number place : Nat) : Prop :=
  e.number = number ∧ (e.event = .released place ∨ ∃ origin, e.event = .restored origin place)

/-- If the event is a return, it went back, or nowhere, and exactly to the place of the mark. -/
def Returns (e : NumberedEvent) : Prop :=
  ∀ origin target, e.event = .restored origin target → target ≤ origin ∧ e.after = target

/-- What makes a mark uses up none. -/
theorem Makes.made? {e : NumberedEvent} {number place : Nat} (h : e.Makes number place) :
    e.made? = some number ∧ e.used? = none := by
  obtain ⟨rfl, event⟩ := h
  simp [NumberedEvent.made?, used?, event]

/-- What uses up a mark makes none. -/
theorem UsesUp.used? {e : NumberedEvent} {number place : Nat} (h : e.UsesUp number place) :
    e.used? = some number ∧ e.made? = none := by
  obtain ⟨rfl, event | ⟨origin, event⟩⟩ := h <;> simp [made?, NumberedEvent.used?, event]

/-- Each mark is made and later used up, and the marks made in between are used up before it. -/
inductive WellNested : List NumberedEvent → Prop
  | nil : WellNested []
  | mark {e e' : NumberedEvent} {number place : Nat} {inner rest : List NumberedEvent}
      (makes : e.Makes number place) (hinner : WellNested inner) (uses : e'.UsesUp number place)
      (hrest : WellNested rest) : WellNested (e :: (inner ++ e' :: rest))

/-- What is well nested stays so with more of the kind behind it. -/
theorem WellNested.append {events more : List NumberedEvent} (h : WellNested events)
    (h' : WellNested more) : WellNested (events ++ more) := by
  induction h with
  | nil => exact h'
  | mark makes hinner uses hrest _ ih =>
    rw [List.cons_append, List.append_assoc, List.cons_append]
    exact .mark makes hinner uses ih

/-- The marks used up are the marks made, each as often. -/
theorem WellNested.used_perm_made {events : List NumberedEvent} (h : WellNested events) :
    (events.filterMap used?).Perm (events.filterMap made?) := by
  induction h with
  | nil => exact .refl _
  | @mark e e' number place inner rest makes hinner uses hrest ihinner ihrest =>
    obtain ⟨made, unused⟩ := makes.made?
    obtain ⟨used, unmade⟩ := uses.used?
    rw [List.filterMap_cons_none unused, List.filterMap_cons_some made, List.filterMap_append,
      List.filterMap_append, List.filterMap_cons_some used, List.filterMap_cons_none unmade]
    exact List.perm_middle.trans ((ihinner.append ihrest).cons number)

/-- Well nested but for the marks that are still open. These are listed newest first, each with its number
and its place. -/
inductive Open : List (Nat × Nat) → List NumberedEvent → Prop
  | none {events : List NumberedEvent} (h : WellNested events) : Open [] events
  | mark {events inner : List NumberedEvent} {marks : List (Nat × Nat)} {e : NumberedEvent}
      {number place : Nat} (h : Open marks events) (makes : e.Makes number place)
      (hinner : WellNested inner) : Open ((number, place) :: marks) (events ++ e :: inner)

variable {marks : List (Nat × Nat)} {events : List NumberedEvent} {e : NumberedEvent} {number place : Nat}

/-- Marks stay open over what is well nested. -/
theorem Open.append {inner : List NumberedEvent} (h : Open marks events) (h' : WellNested inner) :
    Open marks (events ++ inner) := by
  cases h with
  | none h => exact .none (h.append h')
  | mark h makes hinner =>
    rw [List.append_assoc, List.cons_append]
    exact .mark h makes (hinner.append h')

/-- One more mark is made. -/
theorem Open.make (h : Open marks events) (makes : e.Makes number place) :
    Open ((number, place) :: marks) (events ++ [e]) :=
  .mark h makes .nil

/-- The newest open mark is used up. -/
theorem Open.useUp (h : Open ((number, place) :: marks) events) (uses : e.UsesUp number place) :
    Open marks (events ++ [e]) := by
  cases h with
  | mark h makes hinner =>
    rw [List.append_assoc, List.cons_append]
    exact h.append (.mark makes hinner uses .nil)

/-- Giving up the open marks one after the other completes the events. -/
theorem Open.exists_completion (h : Open marks events) :
    ∃ rest, (∀ e ∈ rest, ∃ place, e.event = .released place) ∧ WellNested (events ++ rest) := by
  induction marks generalizing events with
  | nil =>
    cases h with
    | none h => exact ⟨[], List.forall_mem_nil _, by rwa [List.append_nil]⟩
  | cons newest marks ih =>
    obtain ⟨number, place⟩ := newest
    have uses : UsesUp ⟨number, .released place, place⟩ number place := ⟨rfl, .inl rfl⟩
    obtain ⟨rest, released, nested⟩ := ih (h.useUp uses)
    rw [List.append_assoc] at nested
    exact ⟨_, List.forall_mem_cons.2 ⟨⟨place, rfl⟩, released⟩, nested⟩

end NumberedEvent

/-- A cursor that numbers its marks as they are made and records what happens to each of them. -/
structure NumberedCursor (S : Type) where
  inner : S
  /-- How many marks have been made. -/
  count : Nat
  /-- What has happened, oldest first. -/
  events : List NumberedEvent

namespace NumberedCursor

/-- A mark with its number and its place. -/
structure Point (P : Type) where
  inner : P
  number : Nat
  place : Nat

variable {S : Type} [Cursor S]

/-- Start to number and to record. -/
def ofCursor (c : S) : NumberedCursor S := ⟨c, 0, []⟩

/-- Add an event to the record. -/
def record (c : NumberedCursor S) (inner : S) (number : Nat) (event : MarkEvent) : NumberedCursor S :=
  { c with inner, events := c.events ++ [⟨number, event, Cursor.position inner⟩] }

instance : Cursor (NumberedCursor S) where
  Point := Point (Cursor.Point S)
  peek c := ((Cursor.peek c.inner).1, { c with inner := (Cursor.peek c.inner).2 })
  read c := ((Cursor.read c.inner).1, { c with inner := (Cursor.read c.inner).2 })
  position c := Cursor.position c.inner
  remaining c := ((Cursor.remaining c.inner).1, { c with inner := (Cursor.remaining c.inner).2 })
  mark c :=
    let place := Cursor.position c.inner
    (⟨(Cursor.mark c.inner).1, c.count, place⟩,
      { c.record (Cursor.mark c.inner).2 c.count (.made place) with count := c.count + 1 })
  restore c point :=
    c.record (Cursor.restore c.inner point.inner) point.number
      (.restored (Cursor.position c.inner) point.place)
  release c point :=
    c.record (Cursor.release c.inner point.inner) point.number (.released point.place)
  sourceMap c := ((Cursor.sourceMap c.inner).1, { c with inner := (Cursor.sourceMap c.inner).2 })
  takeFault c := ((Cursor.takeFault c.inner).1, { c with inner := (Cursor.takeFault c.inner).2 })

/-- The cursor behaves like the one inside. -/
def simulatesInner (S : Type) [Cursor S] : Cursor.Simulation (NumberedCursor S) S where
  alike c d := c.inner = d
  points p q := p.inner = q
  lost _ := False
  lost_keeps := ⟨fun _ h => h, fun _ h => h, fun _ h => h, fun _ _ h => h, fun _ _ h => h⟩
  position_eq := by rintro c d rfl; rfl
  peek_alike := by rintro c d rfl; exact .inr ⟨rfl, rfl⟩
  read_alike := by rintro c d rfl; exact .inr ⟨rfl, rfl⟩
  mark_alike := by rintro c d rfl; exact ⟨rfl, rfl⟩
  restore_alike := by rintro c d p q rfl rfl; exact .inr rfl
  release_alike := by rintro c d p q rfl rfl; rfl

/-- The same cursor as one that records without numbers. -/
def traced (c : NumberedCursor S) : TracedCursor S := ⟨c.inner, (c.events.map (·.event)).reverse⟩

/-- The cursor records what a traced one does. -/
def simulatesTraced (S : Type) [Cursor S] : Cursor.Simulation (NumberedCursor S) (TracedCursor S) where
  alike c d := c.traced = d
  points p q := p.inner = q.inner ∧ p.place = q.position
  lost _ := False
  lost_keeps := ⟨fun _ h => h, fun _ h => h, fun _ h => h, fun _ _ h => h, fun _ _ h => h⟩
  position_eq := by rintro c d rfl; rfl
  peek_alike := by rintro c d rfl; exact .inr ⟨rfl, rfl⟩
  read_alike := by rintro c d rfl; exact .inr ⟨rfl, rfl⟩
  mark_alike := by rintro c d rfl; exact ⟨⟨rfl, rfl⟩, by simp [traced, Cursor.mark, record]⟩
  restore_alike := by
    rintro c d p q rfl ⟨inner, place⟩
    exact .inr (by simp [traced, Cursor.restore, record, inner, place])
  release_alike := by
    rintro c d p q rfl ⟨inner, place⟩
    simp [traced, Cursor.release, record, inner, place]

/-- Marks are numbered in the order in which they are made. -/
theorem keeps_numbers :
    Cursor.Keeps (NumberedCursor S) fun c => c.events.filterMap NumberedEvent.made? = List.range c.count where
  peek _ h := h
  read _ h := h
  mark c h := by simp [Cursor.mark, record, NumberedEvent.made?, h, List.range_succ]
  restore c point h := by simpa [Cursor.restore, record, NumberedEvent.made?, List.filterMap_cons] using h
  release c point h := by simpa [Cursor.release, record, NumberedEvent.made?, List.filterMap_cons] using h

/-- The events are well nested but for the open marks. -/
theorem keepsStack_open :
    Cursor.KeepsStack (NumberedCursor S) fun c marks =>
      NumberedEvent.Open (marks.map fun point => (point.number, point.place)) c.events where
  peek _ _ h := h
  read _ _ h := h
  mark _ _ h := h.make ⟨rfl, rfl⟩
  restore _ _ _ h := h.useUp ⟨rfl, .inr ⟨_, rfl⟩⟩
  release _ _ _ h := h.useUp ⟨rfl, .inl rfl⟩

/-- The cursor inside honours the open marks, these were made one behind the other, none behind the cursor,
and every return so far went back to its mark. -/
structure InOrder (opens : S → List (Cursor.Point S × Nat) → Prop) (c : NumberedCursor S)
    (marks : List (Cursor.Point (NumberedCursor S))) : Prop where
  honoured : opens c.inner (marks.map fun point => (point.inner, point.place))
  descending : marks.Pairwise fun newer older => older.place ≤ newer.place
  passed : ∀ point ∈ marks, point.place ≤ Cursor.position c.inner
  returns : ∀ event ∈ c.events, event.Returns

/-- An event that is no return changes nothing about the returns. -/
theorem returns_record {c : NumberedCursor S} (h : ∀ e ∈ c.events, e.Returns) {inner : S}
    {number : Nat} {event : MarkEvent} (last : NumberedEvent.Returns ⟨number, event, Cursor.position inner⟩) :
    ∀ e ∈ (c.record inner number event).events, e.Returns := by
  intro e he
  rcases List.mem_append.1 he with old | new
  · exact h e old
  · obtain rfl := List.mem_singleton.1 new
    exact last

/-- Used as a stack, the marks stay in order, and a return to the newest does not go forwards. -/
theorem keepsStack_inOrder {opens : S → List (Cursor.Point S × Nat) → Prop}
    (honours : Cursor.Honours S opens) : Cursor.KeepsStack (NumberedCursor S) (InOrder opens) where
  peek c marks h := by
    obtain ⟨honoured, stays⟩ := honours.peek h.honoured
    exact ⟨honoured, h.descending, fun point hpoint => stays.symm ▸ h.passed point hpoint, h.returns⟩
  read c marks h := by
    obtain ⟨honoured, forwards⟩ := honours.read h.honoured
    exact ⟨honoured, h.descending, fun point hpoint => Nat.le_trans (h.passed point hpoint) forwards,
      h.returns⟩
  mark c marks h := by
    obtain ⟨honoured, stays⟩ := honours.mark h.honoured
    refine ⟨honoured, List.pairwise_cons.2 ⟨h.passed, h.descending⟩, ?_, ?_⟩
    · rw [List.forall_mem_cons]
      exact ⟨Nat.le_of_eq stays.symm, fun point hpoint => stays.symm ▸ h.passed point hpoint⟩
    · exact returns_record h.returns fun origin target found => by cases found
  restore c point marks h := by
    obtain ⟨honoured, back⟩ := honours.restore h.honoured
    obtain ⟨older, descending⟩ := List.pairwise_cons.1 h.descending
    refine ⟨honoured, descending, fun other hother => ?_, ?_⟩
    · exact back.symm ▸ older other hother
    · refine returns_record h.returns ?_
      intro origin target found
      cases found
      exact ⟨h.passed point (.head _), back⟩
  release c point marks h := by
    obtain ⟨honoured, stays⟩ := honours.release h.honoured
    obtain ⟨-, descending⟩ := List.pairwise_cons.1 h.descending
    refine ⟨honoured, descending, fun other hother => ?_, ?_⟩
    · exact stays.symm ▸ h.passed other (.tail _ hother)
    · exact returns_record h.returns fun origin target found => by cases found

end NumberedCursor

namespace Parser

open NumberedEvent

variable {R : Type → Type} {S : Type} [Cursor S] {α : Type}

/-- The cursor at a moment of a run that numbers and records. -/
def cursorAfter (grammar : Grammar R) (budget : Nat) (parser : Parser R α) (c : S) : NumberedCursor S :=
  (Trampoline.advance (State.step grammar) budget (.tail (.start parser (NumberedCursor.ofCursor c) .done))).cursor

/-- Every run uses its marks as a stack.

* Numbering the marks and recording what happens to them changes nothing about a run, and what is recorded
  is what a traced cursor records.
* At every moment of a run, be it unfinished or stopped, no two marks have the same number, and the events
  so far are the beginning of well nested ones: it only remains to give up marks.
* If the run finishes, the events are well nested: the marks used up are the marks made.
* If the cursor honours marks that are used as a stack, every return so far went back, or nowhere, and
  exactly to the place of its mark. -/
theorem uses_marks_as_stack (grammar : Grammar R) (parser : Parser R α) (c : S) :
    (∀ budget,
      parser.run grammar budget c =
        (parser.run grammar budget (NumberedCursor.ofCursor c)).map (.mapCursor NumberedCursor.inner) ∧
      parser.run grammar budget (TracedCursor.ofCursor c) =
        (parser.run grammar budget (NumberedCursor.ofCursor c)).map (.mapCursor NumberedCursor.traced)) ∧
    (∀ budget,
      ((parser.cursorAfter grammar budget c).events.filterMap made?).Nodup ∧
      ∃ rest, (∀ e ∈ rest, ∃ place, e.event = .released place) ∧
        WellNested ((parser.cursorAfter grammar budget c).events ++ rest)) ∧
    (∀ d result, parser.Yields grammar (NumberedCursor.ofCursor c) (.finished d result) →
      WellNested d.events ∧ (d.events.filterMap used?).Perm (d.events.filterMap made?)) ∧
    (∀ opens, Cursor.Honours S opens → opens c [] → ∀ budget,
      ∀ event ∈ (parser.cursorAfter grammar budget c).events, event.Returns) := by
  have start : Trampoline.Holds (fun c marks =>
      Open (marks.map fun point => (point.number, point.place)) c.events)
      (.tail (.start parser (NumberedCursor.ofCursor c) .done) : Trampoline (State R _ α) _) := .none .nil
  refine ⟨fun budget => ⟨?_, ?_⟩, fun budget => ⟨?_, ?_⟩, ?_, ?_⟩
  · exact (NumberedCursor.simulatesInner S).run_eq_map (fun _ h => h) id grammar budget parser rfl
  · exact (NumberedCursor.simulatesTraced S).run_eq_map (fun _ h => h) id grammar budget parser rfl
  · have numbers := NumberedCursor.keeps_numbers.advance grammar budget
      (.tail (.start parser (NumberedCursor.ofCursor c) .done)) rfl
    rw [cursorAfter, numbers]
    exact List.nodup_range
  · obtain ⟨marks, opened⟩ := (NumberedCursor.keepsStack_open.advance grammar budget _ start).exists_marks
    exact opened.exists_completion
  · rintro d result ⟨budget, ran⟩
    have closed : Open [] d.events := NumberedCursor.keepsStack_open.run ran (.none .nil)
    cases closed with
    | none nested => exact ⟨nested, nested.used_perm_made⟩
  · intro opens honours fresh budget
    have inOrder : Trampoline.Holds (NumberedCursor.InOrder opens)
        (.tail (.start parser (NumberedCursor.ofCursor c) .done) : Trampoline (State R _ α) _) :=
      ⟨fresh, .nil, List.forall_mem_nil _, List.forall_mem_nil _⟩
    obtain ⟨marks, h⟩ :=
      ((NumberedCursor.keepsStack_inOrder honours).advance grammar budget _ inOrder).exists_marks
    exact h.returns

/-- Two alternatives on the text `ac`, the first of which is taken back. -/
theorem uses_marks_as_stack_of_literals :
    (∃ d result, (choice (literal "ab") (literal "ac")).Yields Grammar.empty
        (NumberedCursor.ofCursor (TextCursor.ofText "ac")) (.finished d result) ∧
      d.events.map (fun e => (e.number, e.event)) =
        [(0, .made 0), (0, .restored 1 0), (1, .made 0), (1, .released 0)] ∧ WellNested d.events) ∧
    (∀ budget, ∀ event ∈ ((choice (literal "ab") (literal "ac")).cursorAfter Grammar.empty budget
      (TextCursor.ofText "ac")).events, event.Returns) ∧
    (∀ budget, ∀ event ∈ ((choice (literal "ab") (literal "ac")).cursorAfter Grammar.empty budget
      (ByteCursor.ofText "ac")).events, event.Returns) := by
  obtain ⟨-, -, finished, returns⟩ := uses_marks_as_stack Grammar.empty
    (choice (literal "ab") (literal "ac")) (TextCursor.ofText "ac")
  obtain ⟨-, -, -, returns'⟩ := uses_marks_as_stack Grammar.empty
    (choice (literal "ab") (literal "ac")) (ByteCursor.ofText "ac")
  refine ⟨⟨_, _, ⟨20, rfl⟩, by decide, (finished _ _ ⟨20, rfl⟩).1⟩, ?_, ?_⟩
  · exact returns _ TextCursor.honours (List.forall_mem_nil _)
  · exact returns' _ ByteCursor.honours (List.forall_mem_nil _)

end Parser

end Parsing
