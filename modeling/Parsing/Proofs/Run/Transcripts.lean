import Parsing.Proofs.Cursor.Failing
import Parsing.Proofs.Run.Reports
import Parsing.Session

/-!
# Sessions over a source that fails

All handles of a session over a source share one cursor. Once that has met a fault nothing is found
through any handle. Positions then change only when a mark is returned to, also if the source cannot be
moved there. Whenever faults are asked for, be it by a command or at the end of a parse, the answer is
the first fault that was met since they were asked for before. If the moves of the source do not fail
then in a whole session one fault is answered at most.
-/

namespace Parsing

open Parsing.Parser Bytes

variable {R : Type → Type} {S : Type} [Cursor S] {α β : Type} {c d : ByteCursor} {count : Nat}

namespace Cursor.Closed

variable {holds : S → Prop} {valid : Cursor.Point S → Prop}

/-- It holds of the cursor after a look for a fault, and after all that is done then. -/
theorem orFault (closed : Cursor.Closed S holds valid) {c : S} {go : S → Except Error β × S} (h : holds c)
    (goesOn : ∀ d, holds d → holds (go d).2) : holds (Parsing.orFault c go).2 := by
  have taken := closed.takeFault h
  rw [Parsing.orFault]
  rcases ran : Cursor.takeFault c with ⟨_ | fault, d⟩ <;> rw [ran] at taken
  · exact goesOn d taken
  · exact taken

/-- What is closed holds behind the outcome of a run. -/
theorem conclude (closed : Cursor.Closed S holds valid) {c : S} (h : holds c) (result : Result α) :
    holds (Parsing.conclude c result).2 := by
  refine closed.orFault h fun d h => ?_
  cases result with
  | success value position => exact closed.orFault (closed.remaining h) fun _ h => h
  | failure failures => exact closed.orFault (closed.sourceMap h) fun _ h => h

/-- It holds of the cursor that is left behind what is reported for a parser. -/
theorem parse (closed : Cursor.Closed S holds valid) {grammar : Grammar R} {budget : Nat} {parser : Parser R α}
    {c d : S} {outcome : Except Error (Parsed α)} (reported : parse grammar budget parser c = some (outcome, d))
    (h : holds c) : holds d := by
  rcases parse_cases reported with ⟨why, ran, -⟩ | ⟨e, result, ran, concluded⟩
  · exact closed.run ran h
  · have held : holds e := closed.run ran h
    have after := closed.conclude held result
    rwa [concluded] at after

end Cursor.Closed

/-- What a read preserves holds after any number of them. -/
theorem Session.readMany_preserves {P : S → Prop} (read : ∀ c, P c → P (Cursor.read c).2) {c : S} (h : P c)
    (newestFirst : List Char) (count : Nat) : P (Session.readMany c newestFirst count).2 := by
  induction count generalizing c newestFirst with
  | zero => exact h
  | succ count ih =>
    have after := read c h
    rw [Session.readMany]
    rcases ran : Cursor.read c with ⟨_ | char, d⟩ <;> rw [ran] at after
    · exact after
    · exact ih after _

namespace ByteCursor

/-- Looking for a fault does not move the cursor. -/
theorem position_orFault (c : ByteCursor) {go : ByteCursor → Except Error β × ByteCursor}
    (stays : ∀ d, (go d).2.position = d.position) : (orFault c go).2.position = c.position := by
  rw [orFault, show Cursor.takeFault c = (c.fault, { c with fault := none }) from rfl]
  cases c.fault with
  | none => exact stays _
  | some fault => rfl

/-- Reporting a result does not move the cursor. -/
theorem position_conclude (c : ByteCursor) (result : Result α) : (conclude c result).2.position = c.position := by
  cases result with
  | success value position => exact position_orFault c fun d => position_orFault d.remaining.2 fun _ => rfl
  | failure failures => exact position_orFault c fun d => position_orFault d.sourceMap.2 fun _ => rfl

/-- A parser is reported without going anywhere. -/
theorem Broken.position_parse (h : c.Broken) {grammar : Grammar R} {budget : Nat} {parser : Parser R α}
    {outcome : Except Error (Parsed α)}
    (reported : parse grammar budget parser c = some (outcome, d)) : d.position = c.position := by
  rcases parse_cases reported with ⟨why, ran, -⟩ | ⟨e, result, ran, concluded⟩
  · exact (h.run ran).2
  · have stays := position_conclude e result
    rw [concluded] at stays
    exact stays.trans (h.run ran).2

/-- Nothing is read after a fault. -/
theorem Broken.readMany (h : c.Broken) (count : Nat) : Session.readMany c [] count = ("", c) := by
  cases count with
  | zero => rfl
  | succ count =>
    rw [Session.readMany, show Cursor.read c = _ from h.read]
    rfl

end ByteCursor

/-- The fault that was found when the cursor was asked for one, as far as an outcome tells. A run that
was stopped ends before the cursor is asked. -/
def outcomeFault? : Except Error (Parsed α) → Option (Option Fault)
  | .error (.fault fault) => some (some fault)
  | .error (.stopped _) => none
  | .error (.mismatch _) => some none
  | .ok _ => some none

namespace ByteCursor.Unchecked

/-- A fault that is found is reported, and otherwise it remains to be shown that what is done next is
right. -/
theorem orFault (h : c.Unchecked count) {go : ByteCursor → Except Error (Parsed α) × ByteCursor}
    (goesOn : ∀ d, d.Unchecked count → d.fault = none → Tells count (go d).2 (outcomeFault? (go d).1)) :
    Tells count (Parsing.orFault c go).2 (outcomeFault? (Parsing.orFault c go).1) := by
  rw [Parsing.orFault, show Cursor.takeFault c = (c.fault, { c with fault := none }) from rfl]
  cases hfault : c.fault with
  | none =>
    have same : { c with fault := none } = c := by rw [← hfault]
    rw [same]
    exact goesOn c h hfault
  | some fault => exact ⟨hfault.symm.trans h.fault, h.takeFault.2⟩

/-- What is closed holds behind the outcome of a run. -/
theorem conclude (h : c.Unchecked count) (result : Result α) :
    Tells count (Parsing.conclude c result).2 (outcomeFault? (Parsing.conclude c result).1) := by
  refine h.orFault fun d h _ => ?_
  cases result with
  | success value position =>
    obtain ⟨faults, met⟩ := meets_remaining d
    exact (h.meets met).orFault fun e h none => h.tells_none none
  | failure failures =>
    obtain ⟨faults, met⟩ := meets_sourceMap d
    exact (h.meets met).orFault fun e h none => h.tells_none none

/-- What is reported for a parser is the first fault met since the cursor was asked before. -/
theorem parse (h : c.Unchecked count) {grammar : Grammar R} {budget : Nat} {parser : Parser R α}
    {outcome : Except Error (Parsed α)} (reported : parse grammar budget parser c = some (outcome, d)) :
    Tells count d (outcomeFault? outcome) := by
  have keeps := keeps_of_meets fun met (h : Unchecked count _) => h.meets met
  rcases parse_cases reported with ⟨why, ran, rfl⟩ | ⟨e, result, ran, concluded⟩
  · exact keeps.run ran h
  · have kept : e.Unchecked count := keeps.run ran h
    have tells := kept.conclude result
    rwa [concluded] at tells

end ByteCursor.Unchecked

namespace Session

variable {grammar : Grammar R} {budget : Nat}

/-- A session whose handles all stand for one cursor. -/
structure Sole (s : Session ByteCursor) (points : List (String × ByteCursor.Point)) (c : ByteCursor) : Prop where
  cursors : s.cursors = #[c]
  handles : ∀ index ∈ s.handles, index = 0
  points : s.points = points

/-- What a command does to the cursor that all handles stand for, and to the marks, and what is answered. -/
inductive Acts (grammar : Grammar R) (budget : Nat) (points : List (String × ByteCursor.Point)) (c : ByteCursor) :
    Command R α → Answer α → List (String × ByteCursor.Point) → ByteCursor → Prop
  | peek : Acts grammar budget points c .peek (.character c.peek.1) points c.peek.2
  | read : Acts grammar budget points c .read (.character c.read.1) points c.read.2
  | readMany (count : Nat) : Acts grammar budget points c (.readMany count)
      (.text (Session.readMany c [] count).1) points (Session.readMany c [] count).2
  | remaining : Acts grammar budget points c .remaining (.text c.remaining.1) points c.remaining.2
  | newlines : Acts grammar budget points c .newlines (.newlines c.sourceMap.1.newlines) points c.sourceMap.2
  | takeFault : Acts grammar budget points c .takeFault (.fault c.takeFault.1) points c.takeFault.2
  | mark (name : String) : Acts grammar budget points c (.mark name) (.text c.mark.describe)
      ((name, c.mark) :: points.filter (·.1 ≠ name)) c
  | restore (name : String) (point : ByteCursor.Point) (found : points.lookup name = some point) :
      Acts grammar budget points c (.restore name) .nothing (points.filter (·.1 ≠ name)) (c.restore point)
  | release (name : String) (point : ByteCursor.Point) (found : points.lookup name = some point) :
      Acts grammar budget points c (.release name) .nothing (points.filter (·.1 ≠ name)) c
  | copy (index : Nat) : Acts grammar budget points c .copy (.handle index) points c
  | describe : Acts grammar budget points c .describe (.text c.describe) points c
  | suffix : Acts grammar budget points c .suffix (.suffix none) points c
  | parse {parser : Parser R α} {outcome : Except Error (Parsed α)} {d : ByteCursor}
      (reported : Parsing.parse grammar budget parser c = some (outcome, d)) :
      Acts grammar budget points c (.parse parser) (.parsed outcome) points d
  | finished {parser : Parser R α} {d : ByteCursor} {result : Result α}
      (ran : parser.run grammar budget c = some (.finished d result)) :
      Acts grammar budget points c (.run parser) (.result result) points d
  | stopped {parser : Parser R α} {why : Stop} {d : ByteCursor}
      (ran : parser.run grammar budget c = some (.stopped why d)) :
      Acts grammar budget points c (.run parser) (.stopped why) points d

variable {s after : Session ByteCursor} {points : List (String × ByteCursor.Point)}

/-- The only cursor is replaced by another. -/
theorem Sole.put (h : s.Sole points c) (d : ByteCursor) : (s.put 0 d).Sole points d := by
  refine ⟨?_, h.handles, h.points⟩
  simp [Session.put, recordEvents, Inspectable.takeEvents, h.cursors]

/-- A mark that is used up is forgotten. -/
theorem Sole.takePoint {name : String} {taken : ByteCursor.Point × Session ByteCursor} (h : s.Sole points c)
    (found : s.takePoint name = some taken) :
    points.lookup name = some taken.1 ∧ taken.2.Sole (points.filter (·.1 ≠ name)) c := by
  rw [Session.takePoint, h.points] at found
  obtain ⟨point, known, rfl⟩ := Option.map_eq_some_iff.1 found
  exact ⟨known, h.cursors, h.handles, rfl⟩

/-- A step of the session is an act of the one cursor. -/
theorem Sole.step {handle : Nat} {command : Command R α} {answer : Answer α} (h : s.Sole points c)
    (ran : s.step grammar budget handle command = some (answer, after)) :
    ∃ points' d, after.Sole points' d ∧ Acts grammar budget points c command answer points' d := by
  have settled {first second : Answer α} {left right : Session ByteCursor}
      (same : some (first, left) = some (second, right)) : first = second ∧ left = right :=
    Prod.mk.inj (Option.some.inj same)
  rw [Session.step] at ran
  obtain ⟨index, found, ran⟩ := Option.bind_eq_some_iff.1 ran
  obtain rfl := h.handles index (Array.mem_of_getElem? found)
  obtain ⟨cursor, stands, ran⟩ := Option.bind_eq_some_iff.1 ran
  obtain rfl : c = cursor := by simpa [h.cursors] using stands
  cases command with
  | peek =>
    obtain ⟨rfl, rfl⟩ := settled ran
    exact ⟨points, _, h.put _, .peek⟩
  | read =>
    obtain ⟨rfl, rfl⟩ := settled ran
    exact ⟨points, _, h.put _, .read⟩
  | readMany count =>
    obtain ⟨rfl, rfl⟩ := settled ran
    exact ⟨points, _, h.put _, .readMany count⟩
  | remaining =>
    obtain ⟨rfl, rfl⟩ := settled ran
    exact ⟨points, _, h.put _, .remaining⟩
  | newlines =>
    obtain ⟨rfl, rfl⟩ := settled ran
    exact ⟨points, _, h.put _, .newlines⟩
  | takeFault =>
    obtain ⟨rfl, rfl⟩ := settled ran
    exact ⟨points, _, h.put _, .takeFault⟩
  | mark name =>
    obtain ⟨rfl, rfl⟩ := settled ran
    have put := h.put c
    have marked : (name, c.mark) :: (s.put 0 c).points.filter (·.1 ≠ name) =
        (name, c.mark) :: points.filter (·.1 ≠ name) := by rw [put.points]
    exact ⟨_, c, ⟨put.cursors, put.handles, marked⟩, .mark name⟩
  | restore name =>
    obtain ⟨taken, known, ran⟩ := Option.bind_eq_some_iff.1 ran
    obtain ⟨rfl, rfl⟩ := settled ran
    obtain ⟨known, sole⟩ := h.takePoint known
    exact ⟨_, _, sole.put _, .restore name _ known⟩
  | release name =>
    obtain ⟨taken, known, ran⟩ := Option.bind_eq_some_iff.1 ran
    obtain ⟨rfl, rfl⟩ := settled ran
    obtain ⟨known, sole⟩ := h.takePoint known
    exact ⟨_, _, sole.put _, .release name _ known⟩
  | copy =>
    obtain ⟨rfl, rfl⟩ := settled ran
    refine ⟨points, c, ⟨h.cursors, ?_, h.points⟩, .copy _⟩
    intro index known
    rcases Array.mem_push.1 known with known | rfl
    · exact h.handles index known
    · rfl
  | describe =>
    obtain ⟨rfl, rfl⟩ := settled ran
    exact ⟨points, c, h, .describe⟩
  | suffix =>
    obtain ⟨rfl, rfl⟩ := settled ran
    exact ⟨points, c, h, .suffix⟩
  | parse parser =>
    obtain ⟨⟨outcome, d⟩, reported, ran⟩ := Option.bind_eq_some_iff.1 ran
    obtain ⟨rfl, rfl⟩ := settled ran
    exact ⟨points, d, h.put _, .parse reported⟩
  | run parser =>
    obtain ⟨halt, halted, ran⟩ := Option.bind_eq_some_iff.1 ran
    cases halt with
    | finished d result =>
      obtain ⟨rfl, rfl⟩ := settled ran
      exact ⟨points, d, h.put _, .finished halted⟩
    | stopped why d =>
      obtain ⟨rfl, rfl⟩ := settled ran
      exact ⟨points, d, h.put _, .stopped halted⟩

variable {points' : List (String × ByteCursor.Point)} {command : Command R α} {answer : Answer α}

/-- What everything that can be done to a cursor preserves is preserved by a command, if it is true of
the marks. -/
theorem Acts.closed {holds : ByteCursor → Prop} {valid : ByteCursor.Point → Prop}
    (acts : Acts grammar budget points c command answer points' d) (closed : Cursor.Closed ByteCursor holds valid)
    (h : holds c) (known : ∀ mark ∈ points, valid mark.2) : holds d ∧ ∀ mark ∈ points', valid mark.2 := by
  have kept (name : String) : ∀ mark ∈ points.filter (·.1 ≠ name), valid mark.2 :=
    fun mark found => known mark (List.mem_filter.1 found).1
  cases acts with
  | peek => exact ⟨closed.peek h, known⟩
  | read => exact ⟨closed.read h, known⟩
  | readMany count => exact ⟨readMany_preserves (fun _ => closed.read) h [] count, known⟩
  | remaining => exact ⟨closed.remaining h, known⟩
  | newlines => exact ⟨closed.sourceMap h, known⟩
  | takeFault => exact ⟨closed.takeFault h, known⟩
  | mark name => exact ⟨h, List.forall_mem_cons.2 ⟨(closed.mark h).1, kept name⟩⟩
  | restore name point found =>
    obtain ⟨newer, older, same, -⟩ := List.lookup_eq_some_iff.1 found
    have among : (name, point) ∈ points := by simp [same]
    exact ⟨closed.restore h (known _ among), kept name⟩
  | release name point found => exact ⟨h, kept name⟩
  | copy index => exact ⟨h, known⟩
  | describe => exact ⟨h, known⟩
  | suffix => exact ⟨h, known⟩
  | parse reported => exact ⟨closed.parse reported h, known⟩
  | finished ran => exact ⟨closed.run ran h, known⟩
  | stopped ran => exact ⟨closed.run ran h, known⟩

end Session

/-- The fault that was found when the cursor was asked for one, as far as an answer tells. -/
def Answer.fault? : Answer α → Option (Option Fault)
  | .fault found => some found
  | .parsed outcome => outcomeFault? outcome
  | _ => none

/-- What a command that looks for something answers if there is nothing. -/
def Command.nothing? : Command R α → Option (Answer α)
  | .peek => some (.character none)
  | .read => some (.character none)
  | .readMany _ => some (.text "")
  | .remaining => some (.text "")
  | .newlines => some (.newlines #[])
  | _ => none

namespace Session.Acts

variable {grammar : Grammar R} {budget : Nat} {points points' : List (String × ByteCursor.Point)}
  {command : Command R α} {answer : Answer α}

/-- The first fault met since faults were asked for before is answered when they are asked for. -/
theorem tells (acts : Acts grammar budget points c command answer points' d) (h : c.Unchecked count) :
    ByteCursor.Tells count d answer.fault? := by
  have keeps := ByteCursor.keeps_of_meets fun met (h : ByteCursor.Unchecked count _) => h.meets met
  cases acts with
  | peek => exact keeps.peek c h
  | read => exact keeps.read c h
  | readMany count => exact readMany_preserves keeps.read h [] count
  | remaining => exact (ByteCursor.meets_remaining c).elim fun _ met => h.meets met
  | newlines => exact (ByteCursor.meets_sourceMap c).elim fun _ met => h.meets met
  | takeFault => exact h.takeFault
  | mark name => exact h
  | restore name point found => exact keeps.restore c point h
  | release name point found => exact h
  | copy index => exact h
  | describe => exact h
  | suffix => exact h
  | parse reported => exact h.parse reported
  | finished ran => exact keeps.run ran h
  | stopped ran => exact keeps.run ran h

/-- A cursor that has met a fault has nothing to answer, and it stays where it is unless a mark is
returned to. -/
theorem of_broken (acts : Acts grammar budget points c command answer points' d) (h : c.Broken) :
    (∀ reply, command.nothing? = some reply → answer = reply) ∧
      ((∀ name, command ≠ .restore name) → d.position = c.position) := by
  cases acts with
  | peek =>
    rw [h.peek]
    exact ⟨fun _ same => Option.some.inj same, fun _ => rfl⟩
  | read =>
    rw [h.read]
    exact ⟨fun _ same => Option.some.inj same, fun _ => rfl⟩
  | readMany count =>
    rw [h.readMany]
    exact ⟨fun _ same => Option.some.inj same, fun _ => rfl⟩
  | remaining =>
    rw [h.remaining.1]
    exact ⟨fun _ same => Option.some.inj same, fun _ => rfl⟩
  | newlines =>
    rw [h.sourceMap.1]
    exact ⟨fun _ same => Option.some.inj same, fun _ => rfl⟩
  | restore name point found => exact ⟨nofun, fun other => absurd rfl (other name)⟩
  | parse reported => exact ⟨nofun, fun _ => h.position_parse reported⟩
  | finished ran => exact ⟨nofun, fun _ => (h.run ran).2⟩
  | stopped ran => exact ⟨nofun, fun _ => (h.run ran).2⟩
  | _ => exact ⟨nofun, fun _ => rfl⟩

/-- The position of a mark is taken over when it is returned to, also if the source cannot be moved
there. -/
theorem position_restore {name : String}
    (acts : Acts grammar budget points c (.restore name : Command R α) answer points' d) :
    ∃ point, points.lookup name = some point ∧ d.position = point.position := by
  cases acts with
  | restore name point found => exact ⟨point, found, rfl⟩

end Session.Acts

/-- A command of a session over a source, what was answered, and the session before and after it. -/
structure Exchange (R : Type → Type) (α : Type) where
  before : Session ByteCursor
  command : Command R α
  answer : Answer α
  after : Session ByteCursor

namespace Session

variable {grammar : Grammar R} {budget : Nat}

/-- The exchanges of a session, in order. -/
def transcript (grammar : Grammar R) (budget : Nat) (s : Session ByteCursor) :
    List (Nat × Command R α) → Option (List (Exchange R α))
  | [] => some []
  | (handle, command) :: rest =>
    match s.step grammar budget handle command with
    | none => none
    | some (answer, after) => (after.transcript grammar budget rest).map (⟨s, command, answer, after⟩ :: ·)

/-- A transcript begins with a step of the session and goes on with a transcript of what comes of it. -/
theorem exists_of_transcript_cons {s : Session ByteCursor} {handle : Nat} {command : Command R α}
    {rest : List (Nat × Command R α)} {exchanges : List (Exchange R α)}
    (ran : s.transcript grammar budget ((handle, command) :: rest) = some exchanges) :
    ∃ answer after others, s.step grammar budget handle command = some (answer, after) ∧
      after.transcript grammar budget rest = some others ∧ exchanges = ⟨s, command, answer, after⟩ :: others := by
  rw [transcript] at ran
  split at ran
  · cases ran
  · next answer after stepped =>
    obtain ⟨others, later, rfl⟩ := Option.map_eq_some_iff.1 ran
    exact ⟨answer, after, others, stepped, later, rfl⟩

/-- A transcript has the answers of the session and the positions of all handles after each. -/
theorem run_eq_transcript (s : Session ByteCursor) (commands : List (Nat × Command R α)) :
    (s.run grammar budget commands).map Prod.fst = (s.transcript grammar budget commands).map
      (List.map fun exchange => (exchange.answer, exchange.after.positions)) := by
  induction commands generalizing s with
  | nil => rfl
  | cons entry rest ih =>
    obtain ⟨handle, command⟩ := entry
    rw [run, transcript]
    rcases s.step grammar budget handle command with _ | ⟨answer, after⟩
    · rfl
    · have later := ih after
      simp only [Option.bind_eq_bind, Option.bind_some, Option.map_map]
      cases ended : after.run grammar budget rest with
      | none =>
        rw [ended] at later
        rw [Option.map_eq_none_iff.1 later.symm]
        rfl
      | some report =>
        rw [ended] at later
        obtain ⟨others, written, same⟩ := Option.map_eq_some_iff.1 later.symm
        rw [written]
        exact congrArg (fun answers => some ((answer, after.positions) :: answers)) same.symm

/-- The faults that the cursors of a session have met, oldest first. -/
def faults (s : Session ByteCursor) : List Fault := s.cursors.toList.flatMap ByteCursor.faults

/-- All handles of a session are at this place. -/
def StandsAt (s : Session ByteCursor) (place : Nat) : Prop := ∀ position ∈ s.positions, position = place

namespace Sole

variable {s : Session ByteCursor} {points : List (String × ByteCursor.Point)}

/-- A new session has one cursor, and no marks. -/
theorem ofCursor (c : ByteCursor) : (Session.ofCursor c).Sole [] c :=
  ⟨rfl, fun _ known => by simpa [Session.ofCursor] using known, rfl⟩

/-- The faults of the session are those of its cursor. -/
theorem faults_eq (h : s.Sole points c) : s.faults = c.faults := by
  simp [faults, h.cursors]

/-- All handles stand where the cursor does. -/
theorem standsAt (h : s.Sole points c) : s.StandsAt c.position := by
  intro position found
  obtain ⟨index, known, rfl⟩ := List.mem_map.1 found
  rw [h.handles index (Array.mem_toList_iff.1 known), h.cursors]
  rfl

end Sole

end Session

/-- What sticks in an exchange. Faults are only added to those already met. After a fault there is
nothing to answer, and positions change only when a mark is returned to, which sets all of them to the
position of the mark. -/
structure Exchange.Sticks (exchange : Exchange R α) : Prop where
  added : exchange.before.faults <+: exchange.after.faults
  nothing : exchange.before.faults ≠ [] →
    ∀ reply, exchange.command.nothing? = some reply → exchange.answer = reply
  stays : exchange.before.faults ≠ [] → (∀ name, exchange.command ≠ .restore name) →
    ∃ place, exchange.before.StandsAt place ∧ exchange.after.StandsAt place
  returns : ∀ name, exchange.command = .restore name →
    ∃ point, exchange.before.points.lookup name = some point ∧ exchange.after.StandsAt point.position

/-- Whenever faults are asked for, the answer is the first of those met since they were asked for before,
which was when there were `seen` of them. -/
def Exchange.TellFirst (seen : Nat) : List (Exchange R α) → Prop
  | [] => True
  | exchange :: rest =>
    match exchange.answer.fault? with
    | none => TellFirst seen rest
    | some found =>
      found = (exchange.after.faults.drop seen).head? ∧ TellFirst exchange.after.faults.length rest

/-- The faults that are answered. -/
def Exchange.told (exchanges : List (Exchange R α)) : List Fault :=
  exchanges.filterMap fun exchange => exchange.answer.fault?.join

/-- What was told first comes first. -/
theorem Exchange.told_cons (exchange : Exchange R α) (rest : List (Exchange R α)) :
    told (exchange :: rest) = exchange.answer.fault?.join.toList ++ told rest := by
  rw [told, List.filterMap_cons]
  cases exchange.answer.fault?.join <;> rfl

namespace Session

variable {grammar : Grammar R} {budget : Nat} {s : Session ByteCursor}
  {points : List (String × ByteCursor.Point)} {commands : List (Nat × Command R α)}
  {exchanges : List (Exchange R α)}

/-- Every exchange is an act of one cursor, for which all holds that everything preserves. -/
theorem acts_of_transcript {holds : ByteCursor → Prop} {valid : ByteCursor.Point → Prop}
    (closed : Cursor.Closed ByteCursor holds valid) (sole : s.Sole points c) (h : holds c)
    (known : ∀ mark ∈ points, valid mark.2) (ran : s.transcript grammar budget commands = some exchanges) :
    ∀ exchange ∈ exchanges, ∃ points c points' d, exchange.before.Sole points c ∧ exchange.after.Sole points' d ∧
      Acts grammar budget points c exchange.command exchange.answer points' d ∧ holds c ∧ holds d := by
  induction commands generalizing s points c exchanges with
  | nil =>
    obtain rfl := Option.some.inj ran
    exact List.forall_mem_nil _
  | cons entry rest ih =>
    obtain ⟨handle, command⟩ := entry
    obtain ⟨answer, after, others, stepped, later, rfl⟩ := exists_of_transcript_cons ran
    obtain ⟨points', d, sole', acts⟩ := sole.step stepped
    obtain ⟨held, known'⟩ := acts.closed closed h known
    exact List.forall_mem_cons.2 ⟨⟨points, c, points', d, sole, sole', acts, h, held⟩, ih sole' held known' later⟩

/-- Whenever faults are asked for, the answer is the first of those met since they were asked for before. -/
theorem tellFirst_of_transcript (sole : s.Sole points c) (h : c.Unchecked count)
    (ran : s.transcript grammar budget commands = some exchanges) : Exchange.TellFirst count exchanges := by
  induction commands generalizing s points c count exchanges with
  | nil =>
    obtain rfl := Option.some.inj ran
    trivial
  | cons entry rest ih =>
    obtain ⟨handle, command⟩ := entry
    obtain ⟨answer, after, others, stepped, later, rfl⟩ := exists_of_transcript_cons ran
    obtain ⟨points', d, sole', acts⟩ := sole.step stepped
    have tells := acts.tells h
    rw [Exchange.TellFirst]
    simp only
    cases told : answer.fault? with
    | none =>
      rw [told] at tells
      exact ih sole' tells later
    | some found =>
      rw [told] at tells
      rw [sole'.faults_eq]
      exact ⟨tells.1, ih sole' tells.2 later⟩

/-- Every fault that is answered is one more of those that have been met. -/
theorem length_told_le (sole : s.Sole points c) (h : c.Unchecked count) {bound : Nat} (le : count ≤ bound)
    (ran : s.transcript grammar budget commands = some exchanges)
    (bounded : ∀ exchange ∈ exchanges, exchange.after.faults.length ≤ bound) :
    count + (Exchange.told exchanges).length ≤ bound := by
  induction commands generalizing s points c count exchanges with
  | nil =>
    obtain rfl := Option.some.inj ran
    exact le
  | cons entry rest ih =>
    obtain ⟨handle, command⟩ := entry
    obtain ⟨answer, after, others, stepped, later, rfl⟩ := exists_of_transcript_cons ran
    obtain ⟨points', d, sole', acts⟩ := sole.step stepped
    obtain ⟨here, bounded⟩ := List.forall_mem_cons.1 bounded
    rw [sole'.faults_eq] at here
    have tells := acts.tells h
    rw [Exchange.told_cons, List.length_append]
    cases told : answer.fault? with
    | none =>
      rw [told] at tells
      have := ih sole' tells le later bounded
      simpa using this
    | some found =>
      rw [told] at tells
      obtain ⟨first, asked⟩ := tells
      have counted := ih sole' asked here later bounded
      have grown : c.faults <+: d.faults :=
        (acts.closed (ByteCursor.closed_prefix c) (List.prefix_refl _) fun _ _ => trivial).1
      have grown := Nat.le_trans h.le grown.length_le
      cases found with
      | none =>
        simp only [Option.join_some, Option.toList_none, List.length_nil]
        omega
      | some fault =>
        -- this fault was met since faults were asked for before, so more have been met than then
        have left := List.length_pos_of_mem (List.mem_of_mem_head? first.symm)
        rw [List.length_drop] at left
        simp only [Option.join_some, Option.toList_some, List.length_singleton]
        omega

end Session

/-- What one cursor does sticks for all handles. -/
theorem Exchange.sticks {exchange : Exchange R α} {grammar : Grammar R} {budget : Nat}
    {points points' : List (String × ByteCursor.Point)} (before : exchange.before.Sole points c)
    (after : exchange.after.Sole points' d)
    (acts : Session.Acts grammar budget points c exchange.command exchange.answer points' d)
    (broken : c.faults ≠ [] → c.Broken) : exchange.Sticks where
  added := by
    rw [before.faults_eq, after.faults_eq]
    exact (acts.closed (ByteCursor.closed_prefix c) (List.prefix_refl _) fun _ _ => trivial).1
  nothing met := by
    rw [before.faults_eq] at met
    exact (acts.of_broken (broken met)).1
  stays met other := by
    rw [before.faults_eq] at met
    have stays := (acts.of_broken (broken met)).2 other
    exact ⟨c.position, before.standsAt, stays ▸ after.standsAt⟩
  returns name same := by
    rw [same] at acts
    obtain ⟨point, found, there⟩ := acts.position_restore
    exact ⟨point, by rwa [before.points], there ▸ after.standsAt⟩

/-- Faults stick and are told once.

* A cursor that can be come by and has met a fault finds nothing any more, also in the middle of a run,
  and only a return to a mark changes its position: it takes over that of the mark, also if the source
  cannot be moved there.
* So it is in all exchanges of a session, through all handles, whatever goes wrong with the source.
* Whenever faults are asked for, the answer is the first of those met since they were asked for before.
* If moves do not fail then one fault is answered at most. -/
theorem faults_stick_and_are_told_once (source : Source) (capacity : Nat) (grammar : Grammar R) (budget : Nat) :
    (∀ points c, Cursor.Reached (ByteCursor.ofSource source capacity) points c → c.faults ≠ [] →
      Cursor.peek c = (none, c) ∧ Cursor.read c = (none, c) ∧
      (Cursor.remaining c).1 = "" ∧ (Cursor.remaining c).2.position = c.position ∧
      (Cursor.sourceMap c).1.newlines = #[] ∧ (Cursor.sourceMap c).2.position = c.position ∧
      ∀ point, (Cursor.restore c point).position = ByteCursor.Point.position point) ∧
    ∀ (commands : List (Nat × Command R α)) (exchanges : List (Exchange R α)),
      (Session.ofCursor (ByteCursor.ofSource source capacity)).transcript grammar budget commands = some exchanges →
      (∀ exchange ∈ exchanges, exchange.Sticks) ∧ Exchange.TellFirst 0 exchanges ∧
      ((∀ count, source.moveFault count = none) → (Exchange.told exchanges).length ≤ 1) := by
  obtain ⟨holds, valid, closed, fresh, broken⟩ := ByteCursor.exists_closed_broken source
  constructor
  · intro points c reached met
    have h := broken c (closed.reached (fresh capacity) reached).1 met
    exact ⟨h.peek, h.read, h.remaining.1, rfl, congrArg SourceMap.newlines h.sourceMap.1, rfl, fun _ => rfl⟩
  · intro commands exchanges ran
    have sole := Session.Sole.ofCursor (ByteCursor.ofSource source capacity)
    have unchecked : (ByteCursor.ofSource source capacity).Unchecked 0 := ⟨Nat.zero_le _, rfl⟩
    refine ⟨fun exchange found => ?_, Session.tellFirst_of_transcript sole unchecked ran, fun moves => ?_⟩
    · obtain ⟨points, c, points', d, before, after, acts, held, -⟩ :=
        Session.acts_of_transcript closed sole (fresh capacity) (List.forall_mem_nil _) ran exchange found
      exact exchange.sticks before after acts (broken c held)
    · have acts := Session.acts_of_transcript (ByteCursor.FailsOnce.closed moves) sole
        ⟨ByteCursor.placed_ofSource source capacity, rfl, Nat.zero_le _⟩ (List.forall_mem_nil _) ran
      have bounded : ∀ exchange ∈ exchanges, exchange.after.faults.length ≤ 1 := by
        intro exchange found
        obtain ⟨-, -, points', d, -, after, -, -, once⟩ := acts exchange found
        rw [after.faults_eq, ByteCursor.faults, List.length_reverse]
        exact once.once
      have counted := Session.length_told_le sole unchecked (Nat.zero_le 1) ran bounded
      rwa [Nat.zero_add] at counted

/-- Behind `a` a byte is malformed. The fault is told through one handle and not again through the other,
and nothing more is found from the start. -/
theorem faults_stick_and_are_told_once_malformed :
    let source := Source.ofBytes #[0x61, 0xff, 0x62]
    let c := ByteCursor.ofSource source 2
    let commands : List (Nat × Command NoRule Unit) := [(0, .mark "start"), (0, .readMany 9), (0, .copy),
      (1, .takeFault), (1, .restore "start"), (0, .read), (0, .takeFault)]
    Cursor.peek (Cursor.read (Cursor.read c).2).2 = (none, (Cursor.read (Cursor.read c).2).2) ∧
    ∃ exchanges, (Session.ofCursor c).transcript .empty 0 commands = some exchanges ∧
      Exchange.told exchanges = [.malformedText] ∧ (∀ exchange ∈ exchanges, exchange.Sticks) ∧
      (Exchange.told exchanges).length ≤ 1 := by
  intro source c commands
  obtain ⟨reached, sessions⟩ := faults_stick_and_are_told_once (α := Unit) source 2 .empty 0
  have told : ((Session.ofCursor c).transcript .empty 0 commands).map Exchange.told = some [.malformedText] := by
    decide +kernel
  obtain ⟨exchanges, ran, told⟩ := Option.map_eq_some_iff.1 told
  obtain ⟨sticks, -, once⟩ := sessions commands exchanges ran
  exact ⟨(reached [] _ Cursor.Reached.start.read.read (by decide +kernel)).1, exchanges, ran, told, sticks,
    once fun _ => rfl⟩

end Parsing
