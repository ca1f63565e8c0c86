import Parsing.Session
import Parsing.Proofs.Machine.Simulation

/-!
# Sessions with cursors that answer alike

Two kinds of cursors may give the same answers not only to parsers but to everything that can be asked in a
session: for the rest of the document, for its newlines, for faults, and how they and their marks are shown.
Then no session can tell them apart. Command after command it gets the same answers and the same positions,
whatever the commands are and however many handles there are.
-/

namespace Parsing

/-- When two kinds of cursors, and their marks, answer alike in sessions. -/
structure Cursor.Mirror (S T : Type) [Cursor S] [Cursor T] [Inspectable S] [Inspectable T] where
  alike : S → T → Prop
  points : Cursor.Point S → Cursor.Point T → Prop
  position_eq : ∀ {c d}, alike c d → Cursor.position c = Cursor.position d
  peek_alike : ∀ {c d}, alike c d →
    (Cursor.peek c).1 = (Cursor.peek d).1 ∧ alike (Cursor.peek c).2 (Cursor.peek d).2
  read_alike : ∀ {c d}, alike c d →
    (Cursor.read c).1 = (Cursor.read d).1 ∧ alike (Cursor.read c).2 (Cursor.read d).2
  remaining_alike : ∀ {c d}, alike c d →
    (Cursor.remaining c).1 = (Cursor.remaining d).1 ∧ alike (Cursor.remaining c).2 (Cursor.remaining d).2
  sourceMap_alike : ∀ {c d}, alike c d →
    (Cursor.sourceMap c).1 = (Cursor.sourceMap d).1 ∧ alike (Cursor.sourceMap c).2 (Cursor.sourceMap d).2
  takeFault_alike : ∀ {c d}, alike c d →
    (Cursor.takeFault c).1 = (Cursor.takeFault d).1 ∧ alike (Cursor.takeFault c).2 (Cursor.takeFault d).2
  mark_alike : ∀ {c d}, alike c d →
    points (Cursor.mark c).1 (Cursor.mark d).1 ∧ alike (Cursor.mark c).2 (Cursor.mark d).2
  restore_alike : ∀ {c d p q}, alike c d → points p q → alike (Cursor.restore c p) (Cursor.restore d q)
  release_alike : ∀ {c d p q}, alike c d → points p q → alike (Cursor.release c p) (Cursor.release d q)
  sharing_eq : Inspectable.sharing S = Inspectable.sharing T
  describe_eq : ∀ {c d}, alike c d → Inspectable.describe c = Inspectable.describe d
  describePoint_eq : ∀ {p q}, points p q → Inspectable.describePoint p = Inspectable.describePoint q
  suffix_eq : ∀ {c d}, alike c d → Inspectable.suffix? c = Inspectable.suffix? d
  takeEvents_alike : ∀ {c d}, alike c d → (Inspectable.takeEvents c).1 = (Inspectable.takeEvents d).1 ∧
    alike (Inspectable.takeEvents c).2 (Inspectable.takeEvents d).2

variable {R : Type → Type} {S T : Type} [Cursor S] [Cursor T] [Inspectable S] [Inspectable T] {α : Type}

namespace Cursor.Mirror

/-- A cursor answers like itself. -/
def refl (S : Type) [Cursor S] [Inspectable S] : Cursor.Mirror S S where
  alike := Eq
  points := Eq
  position_eq := by rintro c _ rfl; rfl
  peek_alike := by rintro c _ rfl; exact ⟨rfl, rfl⟩
  read_alike := by rintro c _ rfl; exact ⟨rfl, rfl⟩
  remaining_alike := by rintro c _ rfl; exact ⟨rfl, rfl⟩
  sourceMap_alike := by rintro c _ rfl; exact ⟨rfl, rfl⟩
  takeFault_alike := by rintro c _ rfl; exact ⟨rfl, rfl⟩
  mark_alike := by rintro c _ rfl; exact ⟨rfl, rfl⟩
  restore_alike := by rintro c _ p _ rfl rfl; rfl
  release_alike := by rintro c _ p _ rfl rfl; rfl
  sharing_eq := rfl
  describe_eq := by rintro c _ rfl; rfl
  describePoint_eq := by rintro p _ rfl; rfl
  suffix_eq := by rintro c _ rfl; rfl
  takeEvents_alike := by rintro c _ rfl; exact ⟨rfl, rfl⟩

/-- In particular the cursors answer alike to parsers, and are never lost. -/
def toSimulation (m : Cursor.Mirror S T) : Cursor.Simulation S T where
  alike := m.alike
  points := m.points
  lost _ := False
  lost_keeps := ⟨fun _ h => h, fun _ h => h, fun _ h => h, fun _ _ h => h, fun _ _ h => h⟩
  position_eq := m.position_eq
  peek_alike h := .inr (m.peek_alike h)
  read_alike h := .inr (m.read_alike h)
  mark_alike := m.mark_alike
  restore_alike h points := .inr (m.restore_alike h points)
  release_alike := m.release_alike

variable (m : Cursor.Mirror S T)

/-- An answer and the cursor after it, the same on both sides. -/
def Agrees {A : Type} (x : A × S) (y : A × T) : Prop := x.1 = y.1 ∧ m.alike x.2 y.2

/-- Runs end alike, or neither ends. -/
theorem run (grammar : Grammar R) (budget : Nat) (parser : Parser R α) {c : S} {d : T}
    (h : m.alike c d) : Option.Rel (Parser.Halt.Alike m.toSimulation) (parser.run grammar budget c)
      (parser.run grammar budget d) := by
  rcases m.toSimulation.run grammar budget parser h with ⟨halt, -, lost⟩ | ⟨state, -, lost⟩ |
    ⟨unfinished, other⟩ | ⟨halt, other, ran, ran', alike⟩
  · exact lost.elim
  · exact lost.elim
  · rw [unfinished, other]
    exact .none
  · rw [ran, ran']
    exact .some alike

/-- Cursors that answer like one and the same other cursor answer like each other. -/
def kernel : Cursor.Mirror S S where
  alike c d := ∃ e, m.alike c e ∧ m.alike d e
  points p q := ∃ r, m.points p r ∧ m.points q r
  position_eq := fun ⟨_, h, h'⟩ => (m.position_eq h).trans (m.position_eq h').symm
  peek_alike := fun ⟨_, h, h'⟩ => ⟨(m.peek_alike h).1.trans (m.peek_alike h').1.symm,
    _, (m.peek_alike h).2, (m.peek_alike h').2⟩
  read_alike := fun ⟨_, h, h'⟩ => ⟨(m.read_alike h).1.trans (m.read_alike h').1.symm,
    _, (m.read_alike h).2, (m.read_alike h').2⟩
  remaining_alike := fun ⟨_, h, h'⟩ => ⟨(m.remaining_alike h).1.trans (m.remaining_alike h').1.symm,
    _, (m.remaining_alike h).2, (m.remaining_alike h').2⟩
  sourceMap_alike := fun ⟨_, h, h'⟩ => ⟨(m.sourceMap_alike h).1.trans (m.sourceMap_alike h').1.symm,
    _, (m.sourceMap_alike h).2, (m.sourceMap_alike h').2⟩
  takeFault_alike := fun ⟨_, h, h'⟩ => ⟨(m.takeFault_alike h).1.trans (m.takeFault_alike h').1.symm,
    _, (m.takeFault_alike h).2, (m.takeFault_alike h').2⟩
  mark_alike := fun ⟨_, h, h'⟩ => ⟨⟨_, (m.mark_alike h).1, (m.mark_alike h').1⟩,
    _, (m.mark_alike h).2, (m.mark_alike h').2⟩
  restore_alike := fun ⟨_, h, h'⟩ ⟨_, p, p'⟩ => ⟨_, m.restore_alike h p, m.restore_alike h' p'⟩
  release_alike := fun ⟨_, h, h'⟩ ⟨_, p, p'⟩ => ⟨_, m.release_alike h p, m.release_alike h' p'⟩
  sharing_eq := rfl
  describe_eq := fun ⟨_, h, h'⟩ => (m.describe_eq h).trans (m.describe_eq h').symm
  describePoint_eq := fun ⟨_, p, p'⟩ => (m.describePoint_eq p).trans (m.describePoint_eq p').symm
  suffix_eq := fun ⟨_, h, h'⟩ => (m.suffix_eq h).trans (m.suffix_eq h').symm
  takeEvents_alike := fun ⟨_, h, h'⟩ => ⟨(m.takeEvents_alike h).1.trans (m.takeEvents_alike h').1.symm,
    _, (m.takeEvents_alike h).2, (m.takeEvents_alike h').2⟩

/-- The same fault is reported, or both go on. -/
theorem orFault {β : Type} {c : S} {d : T} (h : m.alike c d) {go : S → Except Error β × S}
    {go' : T → Except Error β × T} (goes : ∀ {c d}, m.alike c d → m.Agrees (go c) (go' d)) :
    m.Agrees (Parsing.orFault c go) (Parsing.orFault d go') := by
  obtain ⟨same, alike⟩ := m.takeFault_alike h
  unfold Parsing.orFault
  rcases ran : Cursor.takeFault c with ⟨_ | fault, after⟩ <;> rw [ran] at same alike <;>
    rcases ran' : Cursor.takeFault d with ⟨_ | other, after'⟩ <;> rw [ran'] at same alike
  · exact goes alike
  · cases same
  · cases same
  · cases same
    exact ⟨rfl, alike⟩

/-- A result is reported in the same way. -/
theorem conclude {c : S} {d : T} (h : m.alike c d) (result : Result α) :
    m.Agrees (Parsing.conclude c result) (Parsing.conclude d result) := by
  refine m.orFault h fun {c d} h => ?_
  cases result with
  | success value position =>
    obtain ⟨same, alike⟩ := m.remaining_alike h
    exact m.orFault alike fun alike => ⟨congrArg (fun text => Except.ok (Parsed.mk value text)) same, alike⟩
  | failure failures =>
    obtain ⟨same, alike⟩ := m.sourceMap_alike h
    exact m.orFault alike fun alike =>
      ⟨congrArg (fun map => Except.error (Error.mismatch (failures.locate map))) same, alike⟩

/-- Parsing a document has the same outcome. -/
theorem parse (grammar : Grammar R) (budget : Nat) (parser : Parser R α) {c : S} {d : T}
    (h : m.alike c d) : Option.Rel m.Agrees (Parsing.parse grammar budget parser c)
      (Parsing.parse grammar budget parser d) := by
  have ran := m.run grammar budget parser h
  unfold Parsing.parse
  generalize parser.run grammar budget c = halted at ran ⊢
  generalize parser.run grammar budget d = halted' at ran ⊢
  cases ran with
  | none => exact .none
  | some alike =>
    cases alike with
    | finished result alike => exact .some (m.conclude alike result)
    | stopped why alike => exact .some ⟨rfl, alike⟩

/-- Reading many characters reads the same ones. -/
theorem readMany (count : Nat) {c : S} {d : T} (newestFirst : List Char) (h : m.alike c d) :
    m.Agrees (Session.readMany c newestFirst count) (Session.readMany d newestFirst count) := by
  induction count generalizing c d newestFirst with
  | zero => exact ⟨rfl, h⟩
  | succ count ih =>
    obtain ⟨same, alike⟩ := m.read_alike h
    rw [Session.readMany, Session.readMany]
    rcases ran : Cursor.read c with ⟨_ | char, after⟩ <;> rw [ran] at same alike <;>
      rcases ran' : Cursor.read d with ⟨_ | other, after'⟩ <;> rw [ran'] at same alike
    · exact ⟨rfl, alike⟩
    · cases same
    · cases same
    · cases same
      exact ih (char :: newestFirst) alike

end Cursor.Mirror

namespace Session

/-- Sessions with cursors and marks that answer alike, one by one. -/
structure Alike (m : Cursor.Mirror S T) (s : Session S) (t : Session T) : Prop where
  cursors : ∀ index : Nat, Option.Rel m.alike s.cursors[index]? t.cursors[index]?
  size : s.cursors.size = t.cursors.size
  handles : s.handles = t.handles
  points : ∀ name, Option.Rel m.points (s.points.lookup name) (t.points.lookup name)
  events : s.events = t.events

/-- Marks of other names are still found when those of one name are dropped. -/
theorem lookup_filter_ne {P : Type} (points : List (String × P)) (name other : String) :
    (points.filter (·.1 ≠ name)).lookup other = if other = name then none else points.lookup other := by
  induction points with
  | nil => simp
  | cons point points ih =>
    obtain ⟨key, value⟩ := point
    by_cases hkey : key = name
    · subst hkey
      rw [List.filter_cons_of_neg (by simp), ih, List.lookup_cons]
      split
      · rfl
      · next different => rw [beq_false_of_ne different]
    · rw [List.filter_cons_of_pos (by simpa using hkey), List.lookup_cons, List.lookup_cons, ih]
      split
      · next same => rw [if_neg (beq_iff_eq.1 same ▸ hkey)]
      · rfl

variable {m : Cursor.Mirror S T} {s : Session S} {t : Session T} {c : S} {d : T}

/-- Sessions that begin with cursors that answer alike. -/
theorem alike_ofCursor (h : m.alike c d) : (ofCursor c).Alike m (ofCursor d) where
  cursors index := by
    cases index with
    | zero => exact .some h
    | succ index => exact .none
  size := rfl
  handles := rfl
  points _ := .none
  events := rfl

namespace Alike

/-- All handles report the same positions. -/
theorem positions (h : s.Alike m t) : s.positions = t.positions := by
  rw [Session.positions, Session.positions, h.handles]
  refine List.map_congr_left fun index _ => ?_
  have cursors := h.cursors index
  generalize s.cursors[index]? = found at cursors ⊢
  generalize t.cursors[index]? = found' at cursors ⊢
  cases cursors with
  | none => rfl
  | some alike => exact m.position_eq alike

/-- The same events are recorded. -/
theorem recordEvents (h : s.Alike m t) (hcursor : m.alike c d) :
    m.alike (s.recordEvents c).1 (t.recordEvents d).1 ∧
      (s.recordEvents c).2.Alike m (t.recordEvents d).2 := by
  obtain ⟨same, alike⟩ := m.takeEvents_alike hcursor
  refine ⟨alike, h.cursors, h.size, h.handles, h.points, ?_⟩
  change s.events ++ (Inspectable.takeEvents c).1 = t.events ++ (Inspectable.takeEvents d).1
  rw [h.events, same]

/-- Cursors that answer alike can be put in the same place. -/
theorem put (h : s.Alike m t) (index : Nat) (hcursor : m.alike c d) :
    (s.put index c).Alike m (t.put index d) := by
  obtain ⟨alike, recorded⟩ := h.recordEvents hcursor
  refine ⟨fun other => ?_, ?_, recorded.handles, recorded.points, recorded.events⟩
  · simp only [Session.put, Array.getElem?_setIfInBounds, recorded.size]
    split
    · split
      · exact .some alike
      · exact .none
    · exact recorded.cursors other
  · simpa only [Session.put, Array.size_setIfInBounds] using recorded.size

/-- Cursors that answer alike can be put back where the other handles see them. -/
theorem putShared (h : s.Alike m t) (index : Nat) (hcursor : m.alike c d) :
    (s.putShared index c).Alike m (t.putShared index d) := by
  rw [Session.putShared, Session.putShared, m.sharing_eq]
  split
  · exact h.put index hcursor
  · exact (h.recordEvents hcursor).2

/-- Cursors that answer alike have copies that answer alike. -/
theorem copy (h : s.Alike m t) (index : Nat) (hcursor : m.alike c d) :
    (s.copy index c).Alike m (t.copy index d) := by
  rw [Session.copy, Session.copy, m.sharing_eq]
  split
  · exact ⟨h.cursors, h.size, by rw [h.handles], h.points, h.events⟩
  · refine ⟨fun other => ?_, ?_, by rw [h.handles, h.size], h.points, h.events⟩
    · simp only [Array.getElem?_push, h.size]
      split
      · exact .some hcursor
      · exact h.cursors other
    · simp [h.size]

/-- A mark that is made is kept under its name. -/
theorem addPoint (h : s.Alike m t) (name : String) {p : Cursor.Point S} {q : Cursor.Point T}
    (hpoint : m.points p q) :
    Alike m { s with points := (name, p) :: s.points.filter (·.1 ≠ name) }
      { t with points := (name, q) :: t.points.filter (·.1 ≠ name) } := by
  refine ⟨h.cursors, h.size, h.handles, fun other => ?_, h.events⟩
  rw [List.lookup_cons, List.lookup_cons, lookup_filter_ne, lookup_filter_ne]
  by_cases hother : other = name
  · simpa [hother] using Option.Rel.some hpoint
  · simpa [beq_false_of_ne hother, hother] using h.points other

/-- The same marks are there to be used up, and are then gone. -/
theorem takePoint (h : s.Alike m t) (name : String) :
    Option.Rel (fun x y => m.points x.1 y.1 ∧ Alike m x.2 y.2) (s.takePoint name) (t.takePoint name) := by
  have points := h.points name
  rw [Session.takePoint, Session.takePoint]
  generalize s.points.lookup name = found at points ⊢
  generalize t.points.lookup name = found' at points ⊢
  cases points with
  | none => exact .none
  | some point =>
    refine .some ⟨point, h.cursors, h.size, h.handles, fun other => ?_, h.events⟩
    rw [lookup_filter_ne, lookup_filter_ne]
    split
    · exact .none
    · exact h.points other

/-- A command gets the same answer. -/
theorem step (h : s.Alike m t) (grammar : Grammar R) (budget handle : Nat) (command : Command R α) :
    Option.Rel (fun x y => x.1 = y.1 ∧ Alike m x.2 y.2) (s.step grammar budget handle command)
      (t.step grammar budget handle command) := by
  rw [Session.step, Session.step, h.handles]
  cases t.handles[handle]? with
  | none => exact .none
  | some index =>
    have cursors := h.cursors index
    simp only [Option.bind_eq_bind, Option.bind_some]
    generalize s.cursors[index]? = found at cursors ⊢
    generalize t.cursors[index]? = found' at cursors ⊢
    cases cursors with
    | none => exact .none
    | @some c d hcursor =>
      simp only [Option.bind_some]
      cases command with
      | peek =>
        obtain ⟨same, alike⟩ := m.peek_alike hcursor
        exact .some ⟨congrArg _ same, h.put index alike⟩
      | read =>
        obtain ⟨same, alike⟩ := m.read_alike hcursor
        exact .some ⟨congrArg _ same, h.put index alike⟩
      | readMany count =>
        obtain ⟨same, alike⟩ := m.readMany count [] hcursor
        exact .some ⟨congrArg _ same, h.put index alike⟩
      | remaining =>
        obtain ⟨same, alike⟩ := m.remaining_alike hcursor
        exact .some ⟨congrArg _ same, h.put index alike⟩
      | newlines =>
        obtain ⟨same, alike⟩ := m.sourceMap_alike hcursor
        exact .some ⟨congrArg (fun map => Answer.newlines map.newlines) same, h.put index alike⟩
      | takeFault =>
        obtain ⟨same, alike⟩ := m.takeFault_alike hcursor
        exact .some ⟨congrArg _ same, h.put index alike⟩
      | mark name =>
        obtain ⟨point, alike⟩ := m.mark_alike hcursor
        exact .some ⟨congrArg _ (m.describePoint_eq point), (h.put index alike).addPoint name point⟩
      | restore name =>
        have taken := h.takePoint name
        simp only
        generalize s.takePoint name = found at taken ⊢
        generalize t.takePoint name = found' at taken ⊢
        cases taken with
        | none => exact .none
        | some taken => exact .some ⟨rfl, taken.2.put index (m.restore_alike hcursor taken.1)⟩
      | release name =>
        have taken := h.takePoint name
        simp only
        generalize s.takePoint name = found at taken ⊢
        generalize t.takePoint name = found' at taken ⊢
        cases taken with
        | none => exact .none
        | some taken => exact .some ⟨rfl, taken.2.put index (m.release_alike hcursor taken.1)⟩
      | copy => exact .some ⟨rfl, h.copy index hcursor⟩
      | describe => exact .some ⟨congrArg _ (m.describe_eq hcursor), h⟩
      | suffix => exact .some ⟨congrArg _ (m.suffix_eq hcursor), h⟩
      | parse parser =>
        have parsed := m.parse grammar budget parser hcursor
        simp only
        generalize Parsing.parse grammar budget parser c = outcome at parsed ⊢
        generalize Parsing.parse grammar budget parser d = outcome' at parsed ⊢
        cases parsed with
        | none => exact .none
        | some agrees => exact .some ⟨congrArg _ agrees.1, h.putShared index agrees.2⟩
      | run parser =>
        have ran := m.run grammar budget parser hcursor
        simp only
        generalize parser.run grammar budget c = halted at ran ⊢
        generalize parser.run grammar budget d = halted' at ran ⊢
        cases ran with
        | none => exact .none
        | some alike =>
          cases alike with
          | finished result alike => exact .some ⟨rfl, h.put index alike⟩
          | stopped why alike => exact .some ⟨rfl, h.putShared index alike⟩

/-- All commands of a session get the same answers, and all positions are the same after each. -/
theorem run (h : s.Alike m t) (grammar : Grammar R) (budget : Nat) (commands : List (Nat × Command R α)) :
    Option.Rel (fun x y => x.1 = y.1 ∧ Alike m x.2 y.2) (s.run grammar budget commands)
      (t.run grammar budget commands) := by
  induction commands generalizing s t with
  | nil => exact .some ⟨rfl, h⟩
  | cons command commands ih =>
    obtain ⟨handle, command⟩ := command
    have stepped := h.step grammar budget handle command
    rw [Session.run, Session.run]
    generalize s.step grammar budget handle command = found at stepped ⊢
    generalize t.step grammar budget handle command = found' at stepped ⊢
    cases stepped with
    | none => exact .none
    | @some x y agrees =>
      obtain ⟨answer, after⟩ := x
      obtain ⟨answer', after'⟩ := y
      obtain ⟨rfl, alike⟩ := agrees
      have rest := ih alike
      simp only [Option.bind_eq_bind, Option.bind_some, alike.positions]
      generalize after.run grammar budget commands = found at rest ⊢
      generalize after'.run grammar budget commands = found' at rest ⊢
      cases rest with
      | none => exact .none
      | some rest => exact .some ⟨by rw [rest.1], rest.2⟩

/-- The answers and the positions are the same. -/
theorem answers_eq (h : s.Alike m t) (grammar : Grammar R) (budget : Nat)
    (commands : List (Nat × Command R α)) :
    (s.run grammar budget commands).map Prod.fst = (t.run grammar budget commands).map Prod.fst := by
  have ran := h.run grammar budget commands
  generalize s.run grammar budget commands = found at ran ⊢
  generalize t.run grammar budget commands = found' at ran ⊢
  cases ran with
  | none => rfl
  | some agrees => exact congrArg some agrees.1

end Alike

/-- No session tells apart cursors that answer alike. -/
theorem answers_eq (h : m.alike c d) (grammar : Grammar R) (budget : Nat)
    (commands : List (Nat × Command R α)) :
    ((ofCursor c).run grammar budget commands).map Prod.fst =
      ((ofCursor d).run grammar budget commands).map Prod.fst :=
  (alike_ofCursor h).answers_eq grammar budget commands

end Session

end Parsing
