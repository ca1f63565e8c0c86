import Parsing.Proofs.Machine.Outcome

/-!
# Running parsers directly

The direct way to run a parser is by recursion: run its parts, and combine how their runs ended. There
is no pending work and there are no steps, only a depth that bounds the recursion. The machine takes a
detour through pending work, and it arrives where the recursion does: a run ends in some way exactly if
direct evaluation ends in that way, at some depth.
-/

namespace Parsing.Parser

variable {R : Type → Type} {S : Type} [Cursor S] {α β γ : Type} {grammar : Grammar R}

/-- Go on with the result of a run; a run that was stopped stays stopped. -/
def Halt.andThen (halt : Halt S α) (next : S → Result α → Option (Halt S β)) : Option (Halt S β) :=
  match halt with
  | finished c result => next c result
  | stopped why c => some (stopped why c)

/-- Run a parser by running its parts, in at most `depth` nested evaluations. -/
def evaluate (grammar : Grammar R) : Nat → {α : Type} → Parser R α → S → Option (Halt S α)
  | 0, _, _, _ => none
  | _ + 1, _, .scan program, c =>
    match program.run c with
    | (.ok result, c) => some (.finished c result)
    | (.error why, c) => some (.stopped why c)
  | depth + 1, _, .bind first next, c =>
    (evaluate grammar depth first c).bind (·.andThen fun
      | d, .success value _ => evaluate grammar depth (next value) d
      | d, .failure failures => some (.finished d (.failure failures)))
  | depth + 1, _, .map f parser, c =>
    (evaluate grammar depth parser c).bind (·.andThen fun d result =>
      some (.finished d (result.map f)))
  | depth + 1, _, .choice first second, c =>
    (evaluate grammar depth first c).bind (·.andThen fun
      | d, .success value position => some (.finished d (.success value position))
      | d, .failure failures =>
        if Cursor.position d = Cursor.position c then
          (evaluate grammar depth second d).map (Halt.after failures)
        else some (.finished d (.failure failures)))
  | depth + 1, _, .attempt parser, c =>
    (evaluate grammar depth parser (Cursor.mark c).2).bind (·.andThen fun
      | d, .success value position =>
        some (.finished (Cursor.release d (Cursor.mark c).1) (.success value position))
      | d, .failure failures =>
        some (.finished (Cursor.restore d (Cursor.mark c).1) (.failure failures)))
  | depth + 1, _, .lookAhead parser, c =>
    (evaluate grammar depth parser (Cursor.mark c).2).bind (·.andThen fun
      | d, .success value position =>
        some (.finished (Cursor.restore d (Cursor.mark c).1) (.success value position))
      | d, .failure failures =>
        some (.finished (Cursor.release d (Cursor.mark c).1) (.failure failures)))
  | depth + 1, _, .call rule, c => evaluate grammar depth (grammar _ rule) c
  | depth + 1, _, .collect item newestFirst, c =>
    (evaluate grammar depth item c).bind (·.andThen fun
      | d, .failure failures => some (.finished d (.failure failures))
      | d, .success none _ =>
        some (.finished d (.success newestFirst.reverse (Cursor.position d)))
      | d, .success (some value) _ =>
        if Cursor.position d = Cursor.position c then
          some (.finished d (.success (value :: newestFirst).reverse (Cursor.position d)))
        else evaluate grammar depth (.collect item (value :: newestFirst)) d)

omit [Cursor S] in
/-- To go on from what is known to be an end, with what is known to end. -/
theorem Halt.andThen_mono {next other : S → Result α → Option (Halt S β)}
    (h : ∀ d result, ∀ halt ∈ next d result, halt ∈ other d result) (first : Halt S α) :
    ∀ halt ∈ first.andThen next, halt ∈ first.andThen other := by
  cases first with
  | finished d result => exact h d result
  | stopped why d => exact fun _ found => found

omit [Cursor S] in
/-- A run that goes on ends in the same way if both of its parts are given more depth. -/
theorem bind_mono {first deeper : Option (Halt S α)} {next other : S → Result α → Option (Halt S β)}
    (h : ∀ halt ∈ first, halt ∈ deeper)
    (h' : ∀ d result, ∀ halt ∈ next d result, halt ∈ other d result) :
    ∀ halt ∈ first.bind (·.andThen next), halt ∈ deeper.bind (·.andThen other) := by
  intro halt found
  obtain ⟨middle, hmiddle, hhalt⟩ := Option.bind_eq_some_iff.1 found
  exact Option.bind_eq_some_iff.2 ⟨middle, h middle hmiddle, middle.andThen_mono h' halt hhalt⟩

/-- An evaluation that has come to an end comes to the same end at one more depth. -/
theorem evaluate_succ {depth : Nat} {parser : Parser R α} {c : S} :
    ∀ halt ∈ evaluate grammar depth parser c, halt ∈ evaluate grammar (depth + 1) parser c := by
  induction depth generalizing α c with
  | zero => exact fun halt found => nomatch found
  | succ depth ih =>
    cases parser with
    | scan program => exact fun halt found => found
    | bind first next =>
      refine bind_mono ih fun d result => ?_
      cases result with
      | success value position => exact ih
      | failure failures => exact fun halt found => found
    | map f parser => exact bind_mono ih fun d result halt found => found
    | choice first second =>
      refine bind_mono ih fun d result => ?_
      cases result with
      | success value position => exact fun halt found => found
      | failure failures =>
        dsimp only
        split
        · intro halt found
          obtain ⟨last, hlast, rfl⟩ := Option.map_eq_some_iff.1 found
          exact Option.map_eq_some_iff.2 ⟨last, ih last hlast, rfl⟩
        · exact fun halt found => found
    | attempt parser => exact bind_mono ih fun d result halt found => found
    | lookAhead parser => exact bind_mono ih fun d result halt found => found
    | call rule => exact ih
    | collect item newestFirst =>
      refine bind_mono ih fun d result => ?_
      cases result with
      | failure failures => exact fun halt found => found
      | success value position =>
        cases value with
        | none => exact fun halt found => found
        | some value =>
          dsimp only
          split
          · exact fun halt found => found
          · exact ih

/-- What is found at some depth is found at every larger one. -/
theorem evaluate_of_le {depth deeper : Nat} (h : depth ≤ deeper) {parser : Parser R α} {c : S}
    {halt : Halt S α} (found : evaluate grammar depth parser c = some halt) :
    evaluate grammar deeper parser c = some halt := by
  induction h with
  | refl => exact found
  | step _ ih => exact evaluate_succ halt ih

/-- The end that direct evaluation finds is the end of a run. -/
theorem yields_of_evaluate {depth : Nat} {parser : Parser R α} {c : S} {halt : Halt S α}
    (found : evaluate grammar depth parser c = some halt) : parser.Yields grammar c halt := by
  induction depth generalizing α c with
  | zero => cases found
  | succ depth ih =>
    cases parser with
    | scan program =>
      rw [yields_scan_iff]
      rw [evaluate] at found
      rcases ran : program.run c with ⟨_ | result, d⟩
      · rw [ran] at found
        exact (Option.some.inj found).symm
      · rw [ran] at found
        exact (Option.some.inj found).symm
    | bind first next =>
      obtain ⟨middle, hmiddle, hhalt⟩ := Option.bind_eq_some_iff.1 found
      refine yields_bind_iff.2 ⟨middle, ih hmiddle, ?_⟩
      rcases middle with ⟨d, value | failures⟩ | ⟨why, d⟩
      · exact ih hhalt
      · exact Option.some.inj hhalt
      · exact Option.some.inj hhalt
    | map f parser =>
      obtain ⟨middle, hmiddle, hhalt⟩ := Option.bind_eq_some_iff.1 found
      refine yields_map_iff.2 ⟨middle, ih hmiddle, ?_⟩
      cases middle with
      | finished d result => exact Option.some.inj hhalt
      | stopped why d => exact Option.some.inj hhalt
    | choice first second =>
      obtain ⟨middle, hmiddle, hhalt⟩ := Option.bind_eq_some_iff.1 found
      refine yields_choice_iff.2 ⟨middle, ih hmiddle, ?_⟩
      rcases middle with ⟨d, value | failures⟩ | ⟨why, d⟩
      · exact Option.some.inj hhalt
      · dsimp only [Halt.andThen] at hhalt ⊢
        split at hhalt
        · next same =>
          obtain ⟨last, hlast, rfl⟩ := Option.map_eq_some_iff.1 hhalt
          rw [if_pos same]
          exact ⟨last, ih hlast, rfl⟩
        · next moved =>
          rw [if_neg moved]
          exact Option.some.inj hhalt
      · exact Option.some.inj hhalt
    | attempt parser =>
      obtain ⟨middle, hmiddle, hhalt⟩ := Option.bind_eq_some_iff.1 found
      refine yields_attempt_iff.2 ⟨middle, ih hmiddle, ?_⟩
      rcases middle with ⟨d, value | failures⟩ | ⟨why, d⟩ <;> exact Option.some.inj hhalt
    | lookAhead parser =>
      obtain ⟨middle, hmiddle, hhalt⟩ := Option.bind_eq_some_iff.1 found
      refine yields_lookAhead_iff.2 ⟨middle, ih hmiddle, ?_⟩
      rcases middle with ⟨d, value | failures⟩ | ⟨why, d⟩ <;> exact Option.some.inj hhalt
    | call rule => exact yields_call_iff.2 (ih found)
    | collect item newestFirst =>
      obtain ⟨middle, hmiddle, hhalt⟩ := Option.bind_eq_some_iff.1 found
      refine yields_collect_iff.2 ⟨middle, ih hmiddle, ?_⟩
      rcases middle with ⟨d, ⟨_ | value, position⟩ | failures⟩ | ⟨why, d⟩
      · exact Option.some.inj hhalt
      · dsimp only [Halt.andThen] at hhalt ⊢
        split at hhalt
        · next same =>
          rw [if_pos same]
          exact Option.some.inj hhalt
        · next moved =>
          rw [if_neg moved]
          exact ih hhalt
      · exact Option.some.inj hhalt
      · exact Option.some.inj hhalt

/-- A run with more pending work is a run without it, followed by what is pending, and neither takes
longer than both together. The step with which the first run would end is not taken. -/
theorem State.run_handOn {more : Continuation R (Cursor.Point S) β γ} {budget : Nat}
    {t : Trampoline (State R S β) (Halt S β)} {halt : Halt S γ}
    (ran : Trampoline.run (step grammar) budget (handOn more t) = some halt) :
    (∃ c result first last, Trampoline.run (step grammar) first t = some (.finished c result) ∧
      Trampoline.run (step grammar) last (.tail (.resume more c result)) = some halt ∧
      first + last ≤ budget + 1) ∨
    (∃ why c, Trampoline.run (step grammar) budget t = some (.stopped why c) ∧ .stopped why c = halt) := by
  induction budget generalizing t with
  | zero =>
    rcases t with ⟨c, result⟩ | state
    · cases ran
    · exact .inr ⟨_, _, rfl, Option.some.inj ran⟩
    · cases ran
  | succ budget ih =>
    rcases t with (⟨c, result⟩ | ⟨why, c⟩) | ⟨parser, c, rest⟩ | ⟨rest, c, result⟩
    · exact .inl ⟨c, result, 0, budget + 1, rfl, ran, by omega⟩
    · exact .inr ⟨why, c, rfl, Option.some.inj ran⟩
    · rw [handOn, under, Trampoline.run, Trampoline.advance_succ_tail, step, enter_append] at ran
      rcases ih ran with ⟨d, result, first, last, hfirst, hlast, hle⟩ | ⟨why, d, hfirst, hhalt⟩
      · exact .inl ⟨d, result, first + 1, last, hfirst, hlast, by omega⟩
      · exact .inr ⟨why, d, hfirst, hhalt⟩
    · cases rest with
      | done => exact .inl ⟨c, result, 1, budget + 1, rfl, ran, by omega⟩
      | push frame rest =>
        rw [handOn, under, Trampoline.run, Trampoline.advance_succ_tail, Continuation.append, step,
          continueWith_append] at ran
        rcases ih (t := .tail (continueWith frame c result rest)) ran with
          ⟨d, other, first, last, hfirst, hlast, hle⟩ | ⟨why, d, hfirst, hhalt⟩
        · exact .inl ⟨d, other, first + 1, last, hfirst, hlast, by omega⟩
        · exact .inr ⟨why, d, hfirst, hhalt⟩

/-- Running a part with one frame pending takes at most as long for the part, and at most as long for
what the frame makes of its end. -/
theorem State.run_push {parser : Parser R α} {c : S} {frame : Frame R (Cursor.Point S) α β} {budget : Nat}
    {halt : Halt S β}
    (ran : Trampoline.run (step grammar) budget (.tail (.start parser c (.push frame .done))) = some halt) :
    ∃ middle, parser.run grammar budget c = some middle ∧
      match middle with
      | .finished d result =>
        Trampoline.run (step grammar) budget (.tail (continueWith frame d result .done)) = some halt
      | .stopped why d => .stopped why d = halt := by
  have split : Trampoline.run (step grammar) budget
      (handOn (.push frame .done) (.tail (.start parser c .done))) = some halt := ran
  rcases run_handOn split with ⟨d, result, first, last, hfirst, hlast, hle⟩ | ⟨why, d, hfirst, hhalt⟩
  · cases last with
    | zero => cases hlast
    | succ last =>
      exact ⟨.finished d result, Trampoline.run_of_le _ (by omega) hfirst,
        Trampoline.run_of_le _ (by omega) hlast⟩
  · exact ⟨.stopped why d, hfirst, hhalt⟩

/-- If a part is evaluated like its run, and what comes after the part is found at every large depth, then
both are found at one depth. -/
theorem exists_evaluate_bind {parser : Parser R α} {c : S} {frame : Frame R (Cursor.Point S) α β}
    {next : Nat → S → Result α → Option (Halt S β)} {budget : Nat} {halt : Halt S β}
    (part : ∀ middle, parser.run grammar budget c = some middle →
      ∃ depth, evaluate grammar depth parser c = some middle)
    (after : ∀ d result, Trampoline.run (State.step grammar) budget
        (.tail (State.continueWith frame d result .done)) = some halt →
      ∃ depth, ∀ deeper, depth ≤ deeper → next deeper d result = some halt)
    (ran : Trampoline.run (State.step grammar) budget (.tail (.start parser c (.push frame .done))) =
      some halt) :
    ∃ depth, (evaluate grammar depth parser c).bind (·.andThen (next depth)) = some halt := by
  obtain ⟨middle, hfirst, hlast⟩ := State.run_push ran
  obtain ⟨depth, hfirst⟩ := part middle hfirst
  cases middle with
  | finished d result =>
    obtain ⟨other, hlast⟩ := after d result hlast
    exact ⟨max depth other, Option.bind_eq_some_iff.2
      ⟨_, evaluate_of_le (Nat.le_max_left ..) hfirst, hlast _ (Nat.le_max_right ..)⟩⟩
  | stopped why d =>
    exact ⟨depth, Option.bind_eq_some_iff.2 ⟨_, hfirst, congrArg some hlast⟩⟩

/-- The end of a run is found by direct evaluation. -/
theorem evaluate_of_run {budget : Nat} {parser : Parser R α} {c : S} {halt : Halt S α}
    (ran : parser.run grammar budget c = some halt) :
    ∃ depth, evaluate grammar (depth + 1) parser c = some halt := by
  induction budget generalizing α c with
  | zero => cases ran
  | succ budget ih =>
    have part {β : Type} (parser : Parser R β) (c : S) (middle : Halt S β)
        (ran : parser.run grammar budget c = some middle) :
        ∃ depth, evaluate grammar depth parser c = some middle :=
      (ih ran).imp' (· + 1) fun _ found => found
    have deep {β : Type} {parser : Parser R β} {c : S} {middle : Halt S β}
        (ran : parser.run grammar budget c = some middle) :
        ∃ depth, ∀ deeper, depth ≤ deeper → evaluate grammar deeper parser c = some middle :=
      (part _ _ _ ran).imp fun _ found _ hle => evaluate_of_le hle found
    have resumed {β : Type} {d : S} {result : Result β} {halt : Halt S β}
        (ran : Trampoline.run (State.step grammar) budget (.tail (.resume .done d result)) = some halt) :
        ∃ depth, ∀ deeper, depth ≤ deeper → some (.finished d result) = some halt :=
      ⟨0, fun _ _ => congrArg some (State.ends_resume_iff.1 ⟨budget, ran⟩)⟩
    cases parser with
    | scan program =>
      have ended := yields_scan_iff.1 ⟨budget + 1, ran⟩
      refine ⟨0, ?_⟩
      rw [evaluate, ended]
      rcases program.run c with ⟨_ | result, d⟩ <;> rfl
    | bind first next =>
      refine exists_evaluate_bind (part first c) (fun d result ran => ?_) ran
      cases result with
      | success value position => exact deep ran
      | failure failures => exact resumed ran
    | map f parser =>
      refine exists_evaluate_bind (part parser c) (fun d result ran => ?_) ran
      exact resumed ran
    | choice first second =>
      refine exists_evaluate_bind (part first c) (fun d result ran => ?_) ran
      cases result with
      | success value position => exact resumed ran
      | failure failures =>
        dsimp only [State.continueWith] at ran ⊢
        split at ran
        · next same =>
          obtain ⟨last, hsecond, hlast⟩ := State.run_push ran
          refine (deep hsecond).imp fun depth found deeper hle => ?_
          rw [if_pos same, found deeper hle]
          cases last with
          | finished e result => exact congrArg some (State.ends_resume_iff.1 ⟨budget, hlast⟩)
          | stopped why e => exact congrArg some hlast
        · next moved =>
          simp only [if_neg moved]
          exact resumed ran
    | attempt parser =>
      refine exists_evaluate_bind (part parser _) (fun d result ran => ?_) ran
      cases result with
      | success value position => exact resumed ran
      | failure failures => exact resumed ran
    | lookAhead parser =>
      refine exists_evaluate_bind (part parser _) (fun d result ran => ?_) ran
      cases result with
      | success value position => exact resumed ran
      | failure failures => exact resumed ran
    | call rule => exact part (grammar _ rule) c halt ran
    | collect item newestFirst =>
      refine exists_evaluate_bind (part item c) (fun d result ran => ?_) ran
      rcases result with ⟨_ | value, position⟩ | failures
      · exact resumed ran
      · dsimp only [State.continueWith] at ran ⊢
        split at ran
        · next same =>
          simp only [if_pos same]
          exact resumed ran
        · next moved =>
          simp only [if_neg moved]
          exact deep ran
      · exact resumed ran

/-- A run and direct evaluation end alike. -/
theorem yields_iff_evaluate {parser : Parser R α} {c : S} {halt : Halt S α} :
    parser.Yields grammar c halt ↔ ∃ depth, evaluate grammar depth parser c = some halt :=
  ⟨fun ⟨_, ran⟩ => (evaluate_of_run ran).imp' (· + 1) fun _ found => found,
    fun ⟨_, found⟩ => yields_of_evaluate found⟩

end Parsing.Parser
