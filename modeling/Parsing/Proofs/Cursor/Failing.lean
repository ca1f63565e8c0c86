import Parsing.Proofs.Cursor.Coherence

/-!
# Cursors that have met a fault

A cursor over bytes that has met a fault finds nothing any more: no character, no rest and no newlines.
It can still be sent back to marks, and nothing else changes its position. A mark is returned to even if
the source cannot be moved there.

When a cursor is asked for faults it tells the first of those that were met since it was asked before. If
the moves of the source do not fail then a cursor meets one fault at most, since it does not read on
behind it.
-/

namespace Parsing

open Parsing.Parser Bytes

variable {R : Type → Type} {α β : Type}

variable {origin : Source} {c d : ByteCursor} {count : Nat}

namespace ByteCursor

/-- What every fault leaves as it is, and taking a fault as well, holds of all cursors that can be come
by. -/
theorem closed_of_meets {P : ByteCursor → Prop}
    (met : ∀ {c d : ByteCursor} {faults : List Fault}, c.Meets faults d → P c → P d)
    (taken : ∀ {c : ByteCursor}, P c → P (Cursor.takeFault c).2) :
    Cursor.Closed ByteCursor P fun _ => True where
  peek {c} h := (meets_peek c).elim fun _ hmet => met hmet h
  read {c} h := (meets_read c).elim fun _ hmet => met hmet h
  remaining {c} h := (meets_remaining c).elim fun _ hmet => met hmet h
  sourceMap {c} h := (meets_sourceMap c).elim fun _ hmet => met hmet h
  takeFault h := taken h
  mark h := ⟨trivial, h⟩
  restore {c point} h _ := (meets_restore c point).elim fun _ hmet => met hmet h
  release h _ := h

/-- The cursor has met a fault, and has not looked at a character. -/
structure Broken (c : ByteCursor) : Prop where
  failed : c.failed = true
  peeked : c.peeked = none

namespace Broken

/-- No character is found by looking. -/
theorem peek (h : c.Broken) : c.peek = (none, c) := by
  rw [ByteCursor.peek, h.peeked]
  simp only [decode_of_failed h.failed]
  rw [← h.peeked]

/-- No character is found by reading. -/
theorem read (h : c.Broken) : c.read = (none, c) := by
  simp only [ByteCursor.read, h.peeked, decode_of_failed h.failed]

/-- A return to a mark does not mend the cursor. -/
theorem restore (h : c.Broken) (point : Point) : (c.restore point).Broken := by
  obtain ⟨faults, met⟩ := meets_restore c point
  exact ⟨met.failed_of_failed h.failed, rfl⟩

/-- Nothing is left of the document. -/
theorem remaining (h : c.Broken) : c.remaining.1 = "" ∧ c.remaining.2.Broken := by
  rw [ByteCursor.remaining, decodeAll_of_failed h.failed, h.peeked]
  exact ⟨rfl, h.restore _⟩

/-- No newlines are found. -/
theorem sourceMap (h : c.Broken) : c.sourceMap.1 = ⟨#[]⟩ ∧ c.sourceMap.2.Broken := by
  have away := h.restore ⟨0, 0⟩
  rw [ByteCursor.sourceMap, decodeAll_of_failed away.failed]
  exact ⟨rfl, away.restore _⟩

/-- In a run on such a cursor every mark is made where the run began, so the cursor stays there. -/
theorem keepsStack (place : Nat) : Cursor.KeepsStack ByteCursor fun c marks =>
    c.Broken ∧ c.position = place ∧ ∀ mark ∈ marks, Point.position mark = place where
  peek c marks := fun ⟨h, here, made⟩ => by
    rw [show Cursor.peek c = _ from h.peek]
    exact ⟨h, here, made⟩
  read c marks := fun ⟨h, here, made⟩ => by
    rw [show Cursor.read c = _ from h.read]
    exact ⟨h, here, made⟩
  mark c marks := fun ⟨h, here, made⟩ => ⟨h, here, List.forall_mem_cons.2 ⟨here, made⟩⟩
  restore c point marks := fun ⟨h, here, made⟩ =>
    ⟨h.restore point, (List.forall_mem_cons.1 made).1, (List.forall_mem_cons.1 made).2⟩
  release c point marks := fun ⟨h, here, made⟩ => ⟨h, here, (List.forall_mem_cons.1 made).2⟩

/-- A run goes nowhere on such a cursor. -/
theorem run (h : c.Broken) {grammar : Grammar R} {budget : Nat} {parser : Parser R α} {halt : Halt ByteCursor α}
    (ran : parser.run grammar budget c = some halt) :
    halt.cursor.Broken ∧ halt.cursor.position = c.position := by
  obtain ⟨-, broken, stays, -⟩ :=
    ((keepsStack c.position).run ran ⟨h, rfl, List.forall_mem_nil _⟩).exists_marks
  exact ⟨broken, stays⟩

end Broken

/-- A cursor fails when it meets its first fault, and then forgets the character that it has looked at. -/
theorem exists_closed_broken (source : Source) : ∃ holds valid, Cursor.Closed ByteCursor holds valid ∧
    (∀ capacity, holds (ofSource source capacity)) ∧ ∀ c, holds c → c.faults ≠ [] → c.Broken := by
  obtain ⟨chars, stop, hdoc⟩ := source.delivering.exists_decodes
  obtain ⟨stands, serves, fresh⟩ := exists_servesMoved hdoc
  have coherent := Coherent.closed serves
  -- a coherent cursor has nothing peeked once it has failed, and it has failed if a fault is on record
  have counted := closed_of_meets (P := fun c => c.failed = !c.trail.isEmpty)
    (fun {c d faults} met h => by rw [met.failed, met.trail, h]; cases faults <;> cases c.trail <;> rfl) id
  refine ⟨_, _, coherent.and counted, fun capacity => ⟨coherent_ofSource fresh capacity, rfl⟩, ?_⟩
  intro c held met
  have failed : c.failed = true := by
    rw [held.2]
    cases htrail : c.trail with
    | nil => exact absurd (by rw [faults, htrail, List.reverse_nil]) met
    | cons fault earlier => rfl
  exact ⟨failed, held.1.broken failed⟩

/-- Faults are added to those already met. -/
theorem Meets.faults {faults : List Fault} (met : c.Meets faults d) :
    d.faults = c.faults ++ faults.reverse := by
  rw [ByteCursor.faults, met.trail, List.reverse_append, ByteCursor.faults]

/-- Faults are only ever added. -/
theorem closed_prefix (c : ByteCursor) :
    Cursor.Closed ByteCursor (fun d => c.faults <+: d.faults) fun _ => True :=
  closed_of_meets (fun met h => h.trans (by rw [met.faults]; exact List.prefix_append _ _)) id

/-- The cursor was asked for faults when it had met this many, and keeps the first that it has met since. -/
structure Unchecked (count : Nat) (c : ByteCursor) : Prop where
  le : count ≤ c.faults.length
  fault : c.fault = (c.faults.drop count).head?

/-- What the cursor tells when it is asked is the first fault that it has met since it was asked before,
and from then on nothing is left to be told. -/
def Tells (count : Nat) (d : ByteCursor) : Option (Option Fault) → Prop
  | none => d.Unchecked count
  | some found => found = (d.faults.drop count).head? ∧ d.Unchecked d.faults.length

namespace Unchecked

/-- Faults that are met afterwards come behind. -/
theorem meets {faults : List Fault} (h : c.Unchecked count) (met : c.Meets faults d) : d.Unchecked count where
  le := by
    rw [met.faults, List.length_append]
    exact Nat.le_add_right_of_le h.le
  fault := by
    rw [met.fault, met.faults, List.drop_append_of_le_length h.le, List.head?_append, h.fault, List.head?_reverse]

/-- When the cursor is asked it tells the first fault met since it was asked before. -/
theorem takeFault (h : c.Unchecked count) : Tells count (Cursor.takeFault c).2 (some (Cursor.takeFault c).1) :=
  ⟨h.fault, Nat.le_refl _, by
    change none = (c.faults.drop c.faults.length).head?
    rw [List.drop_length, List.head?_nil]⟩

/-- If nothing is found then nothing has been met. -/
theorem tells_none (h : c.Unchecked count) (none : c.fault = none) : Tells count c (some .none) :=
  ⟨none.symm.trans h.fault, Nat.le_refl _, by rw [none, List.drop_length, List.head?_nil]⟩

end Unchecked

/-- The cursor knows where its reader stands. It has met one fault at most, and has failed if it has met
one. -/
structure FailsOnce (origin : Source) (c : ByteCursor) : Prop where
  placed : c.Placed origin
  failed : c.failed = !c.trail.isEmpty
  once : c.trail.length ≤ 1

namespace FailsOnce

/-- Nothing is decoded behind a fault, and one fault is met at most while decoding. -/
theorem decode (h : c.FailsOnce origin) : c.decode.2.FailsOnce origin := by
  have placed := (stays_decode c).placed origin h.placed
  cases healthy : c.failed with
  | true => rwa [decode_of_failed healthy]
  | false =>
    have none : c.trail = [] := by simpa [healthy] using h.failed
    have reads := reads_decode c
    generalize c.decode = report at reads placed ⊢
    cases reads with
    | moved found reader physical => exact ⟨placed, h.failed, h.once⟩
    | fault reader physical fault => exact ⟨placed, rfl, by simp [fail, none]⟩

/-- One fault is met at most while everything that is left is decoded. -/
theorem decodeAll (h : c.FailsOnce origin) (newestFirst : List Char) :
    (c.decodeAll newestFirst).2.FailsOnce origin := by
  fun_induction ByteCursor.decodeAll c newestFirst with
  | case1 c newestFirst after ran =>
    have decoded := h.decode
    rwa [ran] at decoded
  | case2 c newestFirst after char ran ih =>
    have decoded := h.decode
    rw [ran] at decoded
    exact ih decoded

/-- A move that does not fail meets no fault. -/
theorem restore (h : c.FailsOnce origin) (moves : ∀ count, origin.moveFault count = none) (point : Point) :
    (c.restore point).FailsOnce origin := by
  obtain ⟨reader, placed, restored⟩ :=
    restore_eq (P := Reader.PlacedAt origin) point h.placed (h.placed.moveBy moves _)
  rw [restored]
  exact ⟨placed, h.failed, h.once⟩

/-- If moves do not fail then one fault is met at most, whatever is done to the cursor. -/
theorem closed (moves : ∀ count, origin.moveFault count = none) :
    Cursor.Closed ByteCursor (FailsOnce origin) fun _ => True where
  peek {c} h := by
    change c.peek.2.FailsOnce origin
    rw [ByteCursor.peek]
    cases c.peeked with
    | some char => exact h
    | none => exact ⟨h.decode.placed, h.decode.failed, h.decode.once⟩
  read {c} h := by
    change c.read.2.FailsOnce origin
    rw [ByteCursor.read]
    cases c.peeked with
    | some char => exact ⟨h.placed, h.failed, h.once⟩
    | none =>
      have decoded := h.decode
      rcases ran : c.decode with ⟨_ | char, after⟩ <;> rw [ran] at decoded
      · exact decoded
      · exact ⟨decoded.placed, decoded.failed, decoded.once⟩
  remaining {c} h := (h.decodeAll []).restore moves c.mark
  sourceMap {c} h := ((h.restore moves ⟨0, 0⟩).decodeAll []).restore moves c.mark
  takeFault h := ⟨h.placed, h.failed, h.once⟩
  mark h := ⟨trivial, h⟩
  restore {c point} h _ := h.restore moves point
  release h _ := h

end FailsOnce

end ByteCursor

end Parsing
