import Parsing.Proofs.Cursor.Marks
import Parsing.Proofs.Machine.Invariant

/-!
# Cursors that can be come by

Whoever has a cursor can look at characters and consume them, ask for the rest and for the newlines, take
faults, and make marks and use them in any order and as often as is liked. All that parsers do is among this.
So what each of these operations preserves holds of every cursor that can be come by, before a run and after
it.
-/

namespace Parsing

open Parsing.Parser

variable {R : Type → Type} {S : Type} [Cursor S] {α : Type}

/-- The cursors that can be come by from a given one, together with marks that were made on the way, which may
be used again. -/
inductive Cursor.Reached (start : S) : List (Cursor.Point S) → S → Prop
  | start : Reached start [] start
  | peek {points : List (Cursor.Point S)} {c : S} (h : Reached start points c) :
      Reached start points (Cursor.peek c).2
  | read {points : List (Cursor.Point S)} {c : S} (h : Reached start points c) :
      Reached start points (Cursor.read c).2
  | remaining {points : List (Cursor.Point S)} {c : S} (h : Reached start points c) :
      Reached start points (Cursor.remaining c).2
  | sourceMap {points : List (Cursor.Point S)} {c : S} (h : Reached start points c) :
      Reached start points (Cursor.sourceMap c).2
  | takeFault {points : List (Cursor.Point S)} {c : S} (h : Reached start points c) :
      Reached start points (Cursor.takeFault c).2
  | mark {points : List (Cursor.Point S)} {c : S} (h : Reached start points c) :
      Reached start ((Cursor.mark c).1 :: points) (Cursor.mark c).2
  | restore {points : List (Cursor.Point S)} {c : S} {point : Cursor.Point S} (h : Reached start points c)
      (made : point ∈ points) : Reached start points (Cursor.restore c point)
  | release {points : List (Cursor.Point S)} {c : S} {point : Cursor.Point S} (h : Reached start points c)
      (made : point ∈ points) : Reached start points (Cursor.release c point)

namespace Cursor.Reached

variable {start c : S} {points : List (Cursor.Point S)}

/-- The marks of pending work are among those made. -/
theorem keepsStack (start : S) (points : List (Cursor.Point S)) :
    Cursor.KeepsStack S fun c marks => ∃ made, Reached start made c ∧ points ⊆ made ∧ marks ⊆ made where
  peek _ _ := fun ⟨made, h, old, pending⟩ => ⟨made, h.peek, old, pending⟩
  read _ _ := fun ⟨made, h, old, pending⟩ => ⟨made, h.read, old, pending⟩
  mark _ _ := fun ⟨_, h, old, pending⟩ =>
    ⟨_, h.mark, List.subset_cons_of_subset _ old, List.cons_subset_cons _ pending⟩
  restore _ _ _ := fun ⟨made, h, old, pending⟩ =>
    ⟨made, h.restore (List.cons_subset.1 pending).1, old, (List.cons_subset.1 pending).2⟩
  release _ _ _ := fun ⟨made, h, old, pending⟩ =>
    ⟨made, h.release (List.cons_subset.1 pending).1, old, (List.cons_subset.1 pending).2⟩

/-- A run leads to cursors that can be come by. -/
theorem yields (h : Reached start points c) {grammar : Grammar R} {parser : Parser R α} {halt : Halt S α}
    (yields : parser.Yields grammar c halt) : ∃ made, Reached start made halt.cursor ∧ points ⊆ made := by
  obtain ⟨budget, ran⟩ := yields
  have kept := (keepsStack start points).run ran ⟨points, h, List.Subset.refl _, List.nil_subset _⟩
  obtain ⟨-, made, reached, old, -⟩ := kept.exists_marks
  exact ⟨made, reached, old⟩

end Cursor.Reached

/-- A property of cursors, and one of marks, that everything preserves that can be done to a cursor. -/
structure Cursor.Closed (S : Type) [Cursor S] (holds : S → Prop) (valid : Cursor.Point S → Prop) :
    Prop where
  peek : ∀ {c}, holds c → holds (Cursor.peek c).2
  read : ∀ {c}, holds c → holds (Cursor.read c).2
  remaining : ∀ {c}, holds c → holds (Cursor.remaining c).2
  sourceMap : ∀ {c}, holds c → holds (Cursor.sourceMap c).2
  takeFault : ∀ {c}, holds c → holds (Cursor.takeFault c).2
  mark : ∀ {c}, holds c → valid (Cursor.mark c).1 ∧ holds (Cursor.mark c).2
  restore : ∀ {c point}, holds c → valid point → holds (Cursor.restore c point)
  release : ∀ {c point}, holds c → valid point → holds (Cursor.release c point)

namespace Cursor.Closed

variable {holds : S → Prop} {valid : Cursor.Point S → Prop}

/-- It holds of all cursors that can be come by, and of their marks. -/
theorem reached (closed : Cursor.Closed S holds valid) {start c : S} (h : holds start)
    {points : List (Cursor.Point S)} (reached : Cursor.Reached start points c) :
    holds c ∧ ∀ point ∈ points, valid point := by
  induction reached with
  | start => exact ⟨h, List.forall_mem_nil _⟩
  | peek _ ih => exact ⟨closed.peek ih.1, ih.2⟩
  | read _ ih => exact ⟨closed.read ih.1, ih.2⟩
  | remaining _ ih => exact ⟨closed.remaining ih.1, ih.2⟩
  | sourceMap _ ih => exact ⟨closed.sourceMap ih.1, ih.2⟩
  | takeFault _ ih => exact ⟨closed.takeFault ih.1, ih.2⟩
  | mark _ ih =>
    obtain ⟨made, after⟩ := closed.mark ih.1
    exact ⟨after, List.forall_mem_cons.2 ⟨made, ih.2⟩⟩
  | restore _ made ih => exact ⟨closed.restore ih.1 (ih.2 _ made), ih.2⟩
  | release _ made ih => exact ⟨closed.release ih.1 (ih.2 _ made), ih.2⟩

/-- Two such properties may be asked for together. -/
theorem and (closed : Cursor.Closed S holds valid) {holds' : S → Prop} {valid' : Cursor.Point S → Prop}
    (closed' : Cursor.Closed S holds' valid') :
    Cursor.Closed S (fun c => holds c ∧ holds' c) fun point => valid point ∧ valid' point where
  peek h := ⟨closed.peek h.1, closed'.peek h.2⟩
  read h := ⟨closed.read h.1, closed'.read h.2⟩
  remaining h := ⟨closed.remaining h.1, closed'.remaining h.2⟩
  sourceMap h := ⟨closed.sourceMap h.1, closed'.sourceMap h.2⟩
  takeFault h := ⟨closed.takeFault h.1, closed'.takeFault h.2⟩
  mark h := ⟨⟨(closed.mark h.1).1, (closed'.mark h.2).1⟩, (closed.mark h.1).2, (closed'.mark h.2).2⟩
  restore h known := ⟨closed.restore h.1 known.1, closed'.restore h.2 known.2⟩
  release h known := ⟨closed.release h.1 known.1, closed'.release h.2 known.2⟩

/-- It holds throughout a run, since the marks of a run are made in it. -/
theorem keepsStack (closed : Cursor.Closed S holds valid) :
    Cursor.KeepsStack S fun c marks => holds c ∧ ∀ mark ∈ marks, valid mark where
  peek _ _ := fun ⟨held, known⟩ => ⟨closed.peek held, known⟩
  read _ _ := fun ⟨held, known⟩ => ⟨closed.read held, known⟩
  mark _ _ := fun ⟨held, known⟩ =>
    ⟨(closed.mark held).2, List.forall_mem_cons.2 ⟨(closed.mark held).1, known⟩⟩
  restore _ _ _ := fun ⟨held, known⟩ =>
    ⟨closed.restore held (List.forall_mem_cons.1 known).1, (List.forall_mem_cons.1 known).2⟩
  release _ _ _ := fun ⟨held, known⟩ =>
    ⟨closed.release held (List.forall_mem_cons.1 known).1, (List.forall_mem_cons.1 known).2⟩

/-- It holds of the cursor that a run leaves. -/
theorem run (closed : Cursor.Closed S holds valid) {grammar : Grammar R} {budget : Nat} {parser : Parser R α}
    {c : S} {halt : Halt S α} (ran : parser.run grammar budget c = some halt) (h : holds c) :
    holds halt.cursor := by
  obtain ⟨-, held, -⟩ := (closed.keepsStack.run ran ⟨h, List.forall_mem_nil _⟩).exists_marks
  exact held

/-- A cursor that honours its marks may be expected to honour them with the property. -/
theorem honours (closed : Cursor.Closed S holds valid) {opens : S → List (Cursor.Point S × Nat) → Prop}
    (honours : Cursor.Honours S opens) :
    Cursor.Honours S fun c marks => opens c marks ∧ holds c ∧ ∀ mark ∈ marks, valid mark.1 where
  peek h := by
    obtain ⟨opened, held, known⟩ := h
    exact ⟨⟨(honours.peek opened).1, closed.peek held, known⟩, (honours.peek opened).2⟩
  read h := by
    obtain ⟨opened, held, known⟩ := h
    exact ⟨⟨(honours.read opened).1, closed.read held, known⟩, (honours.read opened).2⟩
  mark h := by
    obtain ⟨opened, held, known⟩ := h
    obtain ⟨made, after⟩ := closed.mark held
    exact ⟨⟨(honours.mark opened).1, after, List.forall_mem_cons.2 ⟨made, known⟩⟩, (honours.mark opened).2⟩
  restore h := by
    obtain ⟨opened, held, known⟩ := h
    obtain ⟨newest, known⟩ := List.forall_mem_cons.1 known
    exact ⟨⟨(honours.restore opened).1, closed.restore held newest, known⟩, (honours.restore opened).2⟩
  release h := by
    obtain ⟨opened, held, known⟩ := h
    obtain ⟨newest, known⟩ := List.forall_mem_cons.1 known
    exact ⟨⟨(honours.release opened).1, closed.release held newest, known⟩, (honours.release opened).2⟩

end Cursor.Closed

end Parsing
