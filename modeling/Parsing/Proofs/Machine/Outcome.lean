import Parsing.Parser.Machine

/-!
# How runs end

A run ends in at most one way, whatever the budget. How it ends is determined by how the runs of its
parts end: work that is pending behind a parser only sees the result of that parser. So there is one
law for each operation on parsers, and the laws do not mention steps or pending work.
-/

namespace Parsing.Parser

variable {R : Type → Type} {S : Type} [Cursor S] {α β γ : Type} {grammar : Grammar R}

/-- Pending work followed by more pending work. -/
def Continuation.append {P α β γ : Type} :
    Continuation R P α β → Continuation R P β γ → Continuation R P α γ
  | .done, more => more
  | .push frame rest, more => .push frame (append rest more)

/-- The same state with more pending work behind it. -/
def State.under (more : Continuation R (Cursor.Point S) β γ) : State R S β → State R S γ
  | start parser c rest => start parser c (rest.append more)
  | resume rest c result => resume (rest.append more) c result

/-- What becomes of a step when there is more pending work: the work gets the result. -/
def State.handOn (more : Continuation R (Cursor.Point S) β γ) :
    Trampoline (State R S β) (Halt S β) → Trampoline (State R S γ) (Halt S γ)
  | .tail state => .tail (state.under more)
  | .done (.finished c result) => .tail (.resume more c result)
  | .done (.stopped why c) => .done (.stopped why c)

/-- A run comes to this end if it is given enough steps. -/
def State.Ends (grammar : Grammar R) (t : Trampoline (State R S γ) (Halt S γ)) (halt : Halt S γ) :
    Prop :=
  ∃ budget, Trampoline.run (State.step grammar) budget t = some halt

/-- A parser run on a cursor comes to this end. -/
def Yields (grammar : Grammar R) (parser : Parser R α) (c : S) (halt : Halt S α) : Prop :=
  ∃ budget, parser.run grammar budget c = some halt

namespace State

variable {more : Continuation R (Cursor.Point S) β γ}

/-- What is done has come to its own end. -/
theorem ends_done_iff {value halt : Halt S γ} : Ends grammar (.done value) halt ↔ value = halt := by
  simp [Ends, Trampoline.run, Trampoline.value?]

/-- A run ends as it does after its next step. -/
theorem ends_tail_iff {state : State R S γ} {halt : Halt S γ} :
    Ends grammar (.tail state) halt ↔ Ends grammar (state.step grammar) halt := by
  constructor
  · rintro ⟨budget, ran⟩
    cases budget with
    | zero => simp [Trampoline.run, Trampoline.value?] at ran
    | succ budget => exact ⟨budget, ran⟩
  · rintro ⟨budget, ran⟩
    exact ⟨budget + 1, ran⟩

/-- A run ends in one way only. -/
theorem Ends.unique {t : Trampoline (State R S γ) (Halt S γ)} {halt other : Halt S γ}
    (h : Ends grammar t halt) (h' : Ends grammar t other) : halt = other := by
  obtain ⟨budget, ran⟩ := h
  obtain ⟨budget', ran'⟩ := h'
  have first := Trampoline.run_of_le _ (Nat.le_max_left budget budget') ran
  have second := Trampoline.run_of_le _ (Nat.le_max_right budget budget') ran'
  exact Option.some.inj (first.symm.trans second)

/-- Pending work plays no part in how a parser is started. -/
theorem enter_append (parser : Parser R α) (c : S) (rest : Continuation R (Cursor.Point S) α β)
    (more : Continuation R (Cursor.Point S) β γ) :
    enter grammar parser c (rest.append more) = handOn more (enter grammar parser c rest) := by
  cases parser with
  | scan program =>
    rw [enter, enter]
    rcases program.run c with ⟨_ | result, after⟩ <;> rfl
  | _ => rfl

/-- Pending work plays no part in what the next frame does. -/
theorem continueWith_append (frame : Frame R (Cursor.Point S) α β) (c : S) (result : Result α)
    {δ : Type} (rest : Continuation R (Cursor.Point S) β γ)
    (more : Continuation R (Cursor.Point S) γ δ) :
    continueWith frame c result (rest.append more) = (continueWith frame c result rest).under more := by
  cases frame with
  | map f => rfl
  | after earlier => rfl
  | choice origin second =>
    cases result with
    | success => rfl
    | failure =>
      rw [continueWith, continueWith]
      split <;> rfl
  | collect item newestFirst origin =>
    rcases result with ⟨_ | value, position⟩ | failures
    · rfl
    · rw [continueWith, continueWith]
      split <;> rfl
    · rfl
  | _ => cases result <;> rfl

/-- More pending work behind a state only waits for the run to end. -/
theorem ends_under_iff {state : State R S β} {halt : Halt S γ} :
    Ends grammar (.tail (state.under more)) halt ↔
      Ends grammar (handOn more (state.step grammar)) halt := by
  cases state with
  | start parser c rest => rw [under, ends_tail_iff, step, step, enter_append]
  | resume rest c result =>
    cases rest with
    | done => rfl
    | push frame rest =>
      rw [under, ends_tail_iff, Continuation.append, step, continueWith_append]
      rfl

/-- A run with more pending work ends only if the run without it does. -/
theorem exists_ends_of_handOn {budget : Nat} {t : Trampoline (State R S β) (Halt S β)} {halt : Halt S γ}
    (ran : Trampoline.run (step grammar) budget (handOn more t) = some halt) :
    ∃ halt', Ends grammar t halt' := by
  induction budget generalizing t with
  | zero =>
    rcases t with ⟨_ | c⟩ | state
    · exact ⟨_, ends_done_iff.2 rfl⟩
    · exact ⟨_, ends_done_iff.2 rfl⟩
    · cases ran
  | succ budget ih =>
    rcases t with halt' | ⟨parser, c, rest⟩ | ⟨rest, c, result⟩
    · exact ⟨halt', ends_done_iff.2 rfl⟩
    · rw [handOn, under, Trampoline.run, Trampoline.advance_succ_tail, step, enter_append] at ran
      exact (ih ran).imp fun _ => ends_tail_iff.2
    · cases rest with
      | done => exact ⟨_, ends_tail_iff.2 (ends_done_iff.2 rfl)⟩
      | push frame rest =>
        rw [handOn, under, Trampoline.run, Trampoline.advance_succ_tail, Continuation.append, step,
          continueWith_append] at ran
        exact (ih (t := .tail (continueWith frame c result rest)) ran).imp fun _ => ends_tail_iff.2

/-- A run with more pending work goes on with the end of the run without it. -/
theorem Ends.handOn_iff {t : Trampoline (State R S β) (Halt S β)} {halt' : Halt S β} {halt : Halt S γ}
    (h : Ends grammar t halt') :
    Ends grammar (handOn more t) halt ↔ Ends grammar (handOn more (.done halt')) halt := by
  obtain ⟨budget, ran⟩ := h
  induction budget generalizing t with
  | zero =>
    cases t with
    | done value => rw [ends_done_iff.1 ⟨0, ran⟩]
    | tail state => cases ran
  | succ budget ih =>
    cases t with
    | done value => rw [ends_done_iff.1 ⟨budget + 1, ran⟩]
    | tail state => rw [handOn, ends_under_iff, ih ran]

/-- To run with more pending work is to run without it and to hand on how that ended. -/
theorem ends_handOn_iff {t : Trampoline (State R S β) (Halt S β)} {halt : Halt S γ} :
    Ends grammar (handOn more t) halt ↔
      ∃ halt', Ends grammar t halt' ∧ Ends grammar (handOn more (.done halt')) halt := by
  constructor
  · rintro ⟨budget, ran⟩
    obtain ⟨halt', h⟩ := exists_ends_of_handOn ran
    exact ⟨halt', h, h.handOn_iff.1 ⟨budget, ran⟩⟩
  · rintro ⟨halt', h, rest⟩
    exact h.handOn_iff.2 rest

/-- To run a parser with one frame pending is to run the parser and to hand on how that ended. -/
theorem ends_push_iff {parser : Parser R α} {c : S} {frame : Frame R (Cursor.Point S) α γ}
    {halt : Halt S γ} :
    Ends grammar (.tail (.start parser c (.push frame .done))) halt ↔
      ∃ halt', parser.Yields grammar c halt' ∧
        match halt' with
        | .finished d result => Ends grammar (.tail (continueWith frame d result .done)) halt
        | .stopped why d => .stopped why d = halt := by
  have law : Ends grammar (handOn (.push frame .done) (.tail (.start parser c .done))) halt ↔ _ :=
    ends_handOn_iff
  refine law.trans (exists_congr fun halt' => and_congr_right fun _ => ?_)
  cases halt' with
  | finished d result => exact ends_tail_iff
  | stopped why d => exact ends_done_iff

end State

variable {c : S} {halt : Halt S β}

/-- A parser run on a cursor ends in one way only. -/
theorem Yields.unique {parser : Parser R α} {c : S} {halt other : Halt S α}
    (h : parser.Yields grammar c halt) (h' : parser.Yields grammar c other) : halt = other :=
  State.Ends.unique h h'

/-- Handing on a result with no work pending ends the run. -/
theorem State.ends_resume_iff {result : Result β} {halt : Halt S β} :
    State.Ends grammar (.tail (.resume .done c result)) halt ↔ .finished c result = halt :=
  State.ends_tail_iff.trans State.ends_done_iff

/-- A run ends as its first step leads to. -/
theorem yields_iff {parser : Parser R β} :
    parser.Yields grammar c halt ↔ State.Ends grammar (State.enter grammar parser c .done) halt :=
  State.ends_tail_iff

/-- A scan decides at once. -/
theorem yields_scan_iff {program : Scan β} :
    (scan program).Yields grammar c halt ↔
      halt = match program.run c with
        | (.ok result, d) => .finished d result
        | (.error why, d) => .stopped why d := by
  rw [yields_iff, State.enter]
  rcases program.run c with ⟨_ | result, d⟩
  · exact State.ends_done_iff.trans eq_comm
  · exact State.ends_resume_iff.trans eq_comm

/-- A sequence goes on with the parser that is chosen by the value of the first one. -/
theorem yields_bind_iff {first : Parser R α} {next : α → Parser R β} :
    (bind first next).Yields grammar c halt ↔ ∃ halt', first.Yields grammar c halt' ∧
      match halt' with
      | .finished d (.success value _) => (next value).Yields grammar d halt
      | .finished d (.failure failures) => .finished d (.failure failures) = halt
      | .stopped why d => .stopped why d = halt := by
  refine yields_iff.trans (State.ends_push_iff.trans ?_)
  refine exists_congr fun halt' => and_congr_right fun _ => ?_
  rcases halt' with ⟨d, value | failures⟩ | ⟨why, d⟩
  · rfl
  · exact State.ends_resume_iff
  · rfl

/-- A change of the value changes nothing else. -/
theorem yields_map_iff {f : α → β} {parser : Parser R α} :
    (map f parser).Yields grammar c halt ↔ ∃ halt', parser.Yields grammar c halt' ∧
      match halt' with
      | .finished d result => .finished d (result.map f) = halt
      | .stopped why d => .stopped why d = halt := by
  refine yields_iff.trans (State.ends_push_iff.trans ?_)
  refine exists_congr fun halt' => and_congr_right fun _ => ?_
  cases halt' with
  | finished d result => exact State.ends_resume_iff
  | stopped why d => rfl

/-- How a run ends after earlier alternatives have failed. -/
def Halt.after (earlier : Failures) : Halt S α → Halt S α
  | finished c result => finished c (result.after earlier)
  | stopped why c => stopped why c

/-- The second alternative is run if the first failed where it started. -/
theorem yields_choice_iff {first second : Parser R β} :
    (choice first second).Yields grammar c halt ↔ ∃ halt', first.Yields grammar c halt' ∧
      match halt' with
      | .finished d (.failure failures) =>
        if Cursor.position d = Cursor.position c then
          ∃ last, second.Yields grammar d last ∧ last.after failures = halt
        else .finished d (.failure failures) = halt
      | other => other = halt := by
  refine yields_iff.trans (State.ends_push_iff.trans ?_)
  refine exists_congr fun halt' => and_congr_right fun _ => ?_
  rcases halt' with ⟨d, value | failures⟩ | ⟨why, d⟩
  · exact State.ends_resume_iff
  · dsimp only [State.continueWith]
    split
    · refine State.ends_push_iff.trans (exists_congr fun last => and_congr_right fun _ => ?_)
      cases last with
      | finished e result => exact State.ends_resume_iff
      | stopped why e => rfl
    · exact State.ends_resume_iff
  · rfl

/-- A failure is followed by a return to the start. -/
theorem yields_attempt_iff {parser : Parser R β} :
    (attempt parser).Yields grammar c halt ↔
      ∃ halt', parser.Yields grammar (Cursor.mark c).2 halt' ∧
        match halt' with
        | .finished d (.success value position) =>
          .finished (Cursor.release d (Cursor.mark c).1) (.success value position) = halt
        | .finished d (.failure failures) =>
          .finished (Cursor.restore d (Cursor.mark c).1) (.failure failures) = halt
        | .stopped why d => .stopped why d = halt := by
  refine yields_iff.trans (State.ends_push_iff.trans ?_)
  refine exists_congr fun halt' => and_congr_right fun _ => ?_
  rcases halt' with ⟨d, value | failures⟩ | ⟨why, d⟩
  · exact State.ends_resume_iff
  · exact State.ends_resume_iff
  · rfl

/-- A success is followed by a return to the start. -/
theorem yields_lookAhead_iff {parser : Parser R β} :
    (lookAhead parser).Yields grammar c halt ↔
      ∃ halt', parser.Yields grammar (Cursor.mark c).2 halt' ∧
        match halt' with
        | .finished d (.success value position) =>
          .finished (Cursor.restore d (Cursor.mark c).1) (.success value position) = halt
        | .finished d (.failure failures) =>
          .finished (Cursor.release d (Cursor.mark c).1) (.failure failures) = halt
        | .stopped why d => .stopped why d = halt := by
  refine yields_iff.trans (State.ends_push_iff.trans ?_)
  refine exists_congr fun halt' => and_congr_right fun _ => ?_
  rcases halt' with ⟨d, value | failures⟩ | ⟨why, d⟩
  · exact State.ends_resume_iff
  · exact State.ends_resume_iff
  · rfl

/-- A rule is run as what it stands for. -/
theorem yields_call_iff {rule : R β} :
    (call rule).Yields grammar c halt ↔ (grammar β rule).Yields grammar c halt :=
  yields_iff

/-- A repetition goes on while its item yields a value and consumes something. -/
theorem yields_collect_iff {item : Parser R (Option α)} {newestFirst : List α} {halt : Halt S (List α)} :
    (collect item newestFirst).Yields grammar c halt ↔ ∃ halt', item.Yields grammar c halt' ∧
      match halt' with
      | .finished d (.failure failures) => .finished d (.failure failures) = halt
      | .finished d (.success none _) =>
        .finished d (.success newestFirst.reverse (Cursor.position d)) = halt
      | .finished d (.success (some value) _) =>
        if Cursor.position d = Cursor.position c then
          .finished d (.success (value :: newestFirst).reverse (Cursor.position d)) = halt
        else (collect item (value :: newestFirst)).Yields grammar d halt
      | .stopped why d => .stopped why d = halt := by
  refine yields_iff.trans (State.ends_push_iff.trans ?_)
  refine exists_congr fun halt' => and_congr_right fun _ => ?_
  rcases halt' with ⟨d, ⟨_ | value, position⟩ | failures⟩ | ⟨why, d⟩
  · exact State.ends_resume_iff
  · dsimp only [State.continueWith]
    split
    · exact State.ends_resume_iff
    · rfl
  · exact State.ends_resume_iff
  · rfl

end Parsing.Parser
