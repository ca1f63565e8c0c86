import Parsing.Cursor.Describe
import Parsing.Run

/-!
# Sessions

A session is a conversation about one document: commands go to handles, and each handle stands for
a cursor. Copying a handle gives another one, for the same cursor or for a copy of it, as the kind
of cursor has it. Marks are kept by name until they are used up.
-/

namespace Parsing

/-- What can be asked of a handle. -/
inductive Command (R : Type → Type) (α : Type) : Type 1 where
  | peek
  | read
  | readMany (count : Nat)
  | remaining
  | newlines
  | takeFault
  | mark (name : String)
  | restore (name : String)
  | release (name : String)
  | copy
  | describe
  | suffix
  | parse (parser : Parser R α)
  | run (parser : Parser R α)

/-- What a command answers. -/
inductive Answer (α : Type) where
  | nothing
  | character (char : Option Char)
  | text (text : String)
  | suffix (text : Option String)
  | newlines (positions : Array Nat)
  | fault (fault : Option Fault)
  | handle (index : Nat)
  | parsed (outcome : Except Error (Parsed α))
  | result (result : Result α)
  | stopped (why : Stop)

/-- The cursors of a session, what its handles stand for, its marks, and the events of marks,
oldest first. -/
structure Session (S : Type) [Cursor S] where
  cursors : Array S
  handles : Array Nat
  points : List (String × Cursor.Point S)
  events : List MarkEvent

namespace Session

variable {S : Type} [Cursor S]

/-- A session with one handle. -/
def ofCursor (c : S) : Session S := ⟨#[c], #[0], [], []⟩

/-- The positions of all handles. -/
def positions (s : Session S) : List Nat :=
  s.handles.toList.map fun index => (s.cursors[index]?.map Cursor.position).getD 0

/-- Consume up to `count` characters, stopping at the end; those before are `newestFirst`. -/
def readMany (c : S) (newestFirst : List Char) : Nat → String × S
  | 0 => (String.ofList newestFirst.reverse, c)
  | count + 1 =>
    match Cursor.read c with
    | (some char, c) => readMany c (char :: newestFirst) count
    | (none, c) => (String.ofList newestFirst.reverse, c)

/-- Use up a mark. -/
def takePoint (s : Session S) (name : String) : Option (Cursor.Point S × Session S) :=
  (s.points.lookup name).map fun point =>
    (point, { s with points := s.points.filter (·.1 ≠ name) })

variable [Inspectable S]

/-- Record the events of a cursor. -/
def recordEvents (s : Session S) (c : S) : S × Session S :=
  let (events, c) := Inspectable.takeEvents c
  (c, { s with events := s.events ++ events })

/-- Let a cursor of the session become `c`. -/
def put (s : Session S) (index : Nat) (c : S) : Session S :=
  let (c, s) := s.recordEvents c
  { s with cursors := s.cursors.setIfInBounds index c }

/-- Take over what a copy of a cursor has become, if copies move together. -/
def putShared (s : Session S) (index : Nat) (c : S) : Session S :=
  match Inspectable.sharing S with
  | .shared => s.put index c
  | .separate => (s.recordEvents c).2

/-- Add a handle for a copy of a cursor. -/
def copy (s : Session S) (index : Nat) (c : S) : Session S :=
  match Inspectable.sharing S with
  | .shared => { s with handles := s.handles.push index }
  | .separate => { s with cursors := s.cursors.push c, handles := s.handles.push s.cursors.size }

variable {R : Type → Type} {α : Type}

/-- Carry out a command; there is no answer if the handle or the mark does not exist, or if a parser
needs more than `budget` steps. -/
def step (grammar : Grammar R) (budget : Nat) (s : Session S) (handle : Nat)
    (command : Command R α) : Option (Answer α × Session S) := do
  let index ← s.handles[handle]?
  let c ← s.cursors[index]?
  match command with
  | .peek =>
    let (char, c) := Cursor.peek c
    some (.character char, s.put index c)
  | .read =>
    let (char, c) := Cursor.read c
    some (.character char, s.put index c)
  | .readMany count =>
    let (text, c) := readMany c [] count
    some (.text text, s.put index c)
  | .remaining =>
    let (text, c) := Cursor.remaining c
    some (.text text, s.put index c)
  | .newlines =>
    let (map, c) := Cursor.sourceMap c
    some (.newlines map.newlines, s.put index c)
  | .takeFault =>
    let (fault, c) := Cursor.takeFault c
    some (.fault fault, s.put index c)
  | .mark name =>
    let (point, c) := Cursor.mark c
    let s := s.put index c
    some (.text (Inspectable.describePoint point),
      { s with points := (name, point) :: s.points.filter (·.1 ≠ name) })
  | .restore name =>
    let (point, s) ← s.takePoint name
    some (.nothing, s.put index (Cursor.restore c point))
  | .release name =>
    let (point, s) ← s.takePoint name
    some (.nothing, s.put index (Cursor.release c point))
  | .copy => some (.handle s.handles.size, s.copy index c)
  | .describe => some (.text (Inspectable.describe c), s)
  | .suffix => some (.suffix (Inspectable.suffix? c), s)
  | .parse parser =>
    let (outcome, c) ← Parsing.parse grammar budget parser c
    some (.parsed outcome, s.putShared index c)
  | .run parser =>
    match ← parser.run grammar budget c with
    | .finished c result => some (.result result, s.put index c)
    | .stopped why c => some (.stopped why, s.putShared index c)

/-- Carry out commands one after the other, with the positions of all handles after each. -/
def run (grammar : Grammar R) (budget : Nat) (s : Session S) :
    List (Nat × Command R α) → Option (List (Answer α × List Nat) × Session S)
  | [] => some ([], s)
  | (handle, command) :: rest => do
    let (answer, s) ← s.step grammar budget handle command
    let places := s.positions
    let (answers, s) ← s.run grammar budget rest
    some ((answer, places) :: answers, s)

end Session

end Parsing
