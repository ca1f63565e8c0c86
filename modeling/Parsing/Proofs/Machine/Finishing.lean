import Parsing.Proofs.Machine.Evaluation

/-!
# Runs that finish, with their parts

A run that finishes is made up of runs of the parts of its parser, and all of these finish as well. To prove
something about all finished runs it is enough to prove it for every way in which one can be put together.
-/

namespace Parsing.Parser

variable {R : Type → Type} {S : Type} [Cursor S] {grammar : Grammar R}

/-- Ways to put together a run of a parser that leads from one cursor to another, with a result. -/
inductive Finishes (grammar : Grammar R) : {α : Type} → Parser R α → S → S → Result α → Prop
  | scan {α : Type} {program : Scan α} {c d : S} {result : Result α}
      (ran : program.run c = (.ok result, d)) : Finishes grammar (.scan program) c d result
  | bind {α β : Type} {first : Parser R α} {next : α → Parser R β} {c d e : S} {value : α} {position : Nat}
      {result : Result β} (h : Finishes grammar first c d (.success value position))
      (rest : Finishes grammar (next value) d e result) : Finishes grammar (.bind first next) c e result
  | bindFailure {α β : Type} {first : Parser R α} {next : α → Parser R β} {c d : S} {failures : Failures}
      (h : Finishes grammar first c d (.failure failures)) :
      Finishes grammar (.bind first next) c d (.failure failures)
  | map {α β : Type} {f : α → β} {parser : Parser R α} {c d : S} {result : Result α}
      (h : Finishes grammar parser c d result) : Finishes grammar (.map f parser) c d (result.map f)
  | choice {α : Type} {first second : Parser R α} {c d : S} {result : Result α}
      (h : Finishes grammar first c d result)
      (settled : result.isSuccess = true ∨ Cursor.position d ≠ Cursor.position c) :
      Finishes grammar (.choice first second) c d result
  | choiceSecond {α : Type} {first second : Parser R α} {c d e : S} {failures : Failures}
      {result : Result α} (h : Finishes grammar first c d (.failure failures))
      (same : Cursor.position d = Cursor.position c) (rest : Finishes grammar second d e result) :
      Finishes grammar (.choice first second) c e (result.after failures)
  | attempt {α : Type} {parser : Parser R α} {c d : S} {value : α} {position : Nat}
      (h : Finishes grammar parser (Cursor.mark c).2 d (.success value position)) :
      Finishes grammar (.attempt parser) c (Cursor.release d (Cursor.mark c).1) (.success value position)
  | attemptFailure {α : Type} {parser : Parser R α} {c d : S} {failures : Failures}
      (h : Finishes grammar parser (Cursor.mark c).2 d (.failure failures)) :
      Finishes grammar (.attempt parser) c (Cursor.restore d (Cursor.mark c).1) (.failure failures)
  | lookAhead {α : Type} {parser : Parser R α} {c d : S} {value : α} {position : Nat}
      (h : Finishes grammar parser (Cursor.mark c).2 d (.success value position)) :
      Finishes grammar (.lookAhead parser) c (Cursor.restore d (Cursor.mark c).1)
        (.success value position)
  | lookAheadFailure {α : Type} {parser : Parser R α} {c d : S} {failures : Failures}
      (h : Finishes grammar parser (Cursor.mark c).2 d (.failure failures)) :
      Finishes grammar (.lookAhead parser) c (Cursor.release d (Cursor.mark c).1) (.failure failures)
  | call {α : Type} {rule : R α} {c d : S} {result : Result α}
      (h : Finishes grammar (grammar α rule) c d result) : Finishes grammar (.call rule) c d result
  | collectFailure {α : Type} {item : Parser R (Option α)} {newestFirst : List α} {c d : S}
      {failures : Failures} (h : Finishes grammar item c d (.failure failures)) :
      Finishes grammar (.collect item newestFirst) c d (.failure failures)
  | collectNone {α : Type} {item : Parser R (Option α)} {newestFirst : List α} {c d : S} {position : Nat}
      (h : Finishes grammar item c d (.success none position)) :
      Finishes grammar (.collect item newestFirst) c d
        (.success newestFirst.reverse (Cursor.position d))
  | collectLast {α : Type} {item : Parser R (Option α)} {newestFirst : List α} {c d : S} {value : α}
      {position : Nat} (h : Finishes grammar item c d (.success (some value) position))
      (same : Cursor.position d = Cursor.position c) :
      Finishes grammar (.collect item newestFirst) c d
        (.success (value :: newestFirst).reverse (Cursor.position d))
  | collectMore {α : Type} {item : Parser R (Option α)} {newestFirst : List α} {c d e : S} {value : α}
      {position : Nat} {result : Result (List α)}
      (h : Finishes grammar item c d (.success (some value) position))
      (moved : Cursor.position d ≠ Cursor.position c)
      (rest : Finishes grammar (.collect item (value :: newestFirst)) d e result) :
      Finishes grammar (.collect item newestFirst) c e result

/-- What direct evaluation finds is put together from what it finds for the parts. -/
theorem finishes_of_evaluate {depth : Nat} {α : Type} {parser : Parser R α} {c d : S} {result : Result α}
    (found : evaluate grammar depth parser c = some (.finished d result)) :
    Finishes grammar parser c d result := by
  induction depth generalizing α c d with
  | zero => cases found
  | succ depth ih =>
    cases parser with
    | scan program =>
      apply Finishes.scan
      rw [evaluate] at found
      rcases ran : program.run c with ⟨_ | other, e⟩ <;> rw [ran] at found <;> cases found
      rfl
    | bind first next =>
      obtain ⟨middle, hmiddle, hrest⟩ := Option.bind_eq_some_iff.1 found
      rcases middle with ⟨e, value | failures⟩ | ⟨why, e⟩
      · exact .bind (ih hmiddle) (ih hrest)
      · cases hrest
        exact .bindFailure (ih hmiddle)
      · cases hrest
    | map f parser =>
      obtain ⟨middle, hmiddle, hrest⟩ := Option.bind_eq_some_iff.1 found
      cases middle with
      | finished e result =>
        cases hrest
        exact .map (ih hmiddle)
      | stopped why e => cases hrest
    | choice first second =>
      obtain ⟨middle, hmiddle, hrest⟩ := Option.bind_eq_some_iff.1 found
      rcases middle with ⟨e, value | failures⟩ | ⟨why, e⟩
      · cases hrest
        exact .choice (ih hmiddle) (.inl rfl)
      · dsimp only [Halt.andThen] at hrest
        split at hrest
        · next same =>
          obtain ⟨last, hlast, hafter⟩ := Option.map_eq_some_iff.1 hrest
          cases last with
          | finished e result =>
            cases hafter
            exact .choiceSecond (ih hmiddle) same (ih hlast)
          | stopped why e => cases hafter
        · next moved =>
          cases hrest
          exact .choice (ih hmiddle) (.inr moved)
      · cases hrest
    | attempt parser =>
      obtain ⟨middle, hmiddle, hrest⟩ := Option.bind_eq_some_iff.1 found
      rcases middle with ⟨e, value | failures⟩ | ⟨why, e⟩ <;> cases hrest
      · exact .attempt (ih hmiddle)
      · exact .attemptFailure (ih hmiddle)
    | lookAhead parser =>
      obtain ⟨middle, hmiddle, hrest⟩ := Option.bind_eq_some_iff.1 found
      rcases middle with ⟨e, value | failures⟩ | ⟨why, e⟩ <;> cases hrest
      · exact .lookAhead (ih hmiddle)
      · exact .lookAheadFailure (ih hmiddle)
    | call rule => exact .call (ih found)
    | collect item newestFirst =>
      obtain ⟨middle, hmiddle, hrest⟩ := Option.bind_eq_some_iff.1 found
      rcases middle with ⟨e, ⟨_ | value, position⟩ | failures⟩ | ⟨why, e⟩
      · cases hrest
        exact .collectNone (ih hmiddle)
      · dsimp only [Halt.andThen] at hrest
        split at hrest
        · next same =>
          cases hrest
          exact .collectLast (ih hmiddle) same
        · next moved => exact .collectMore (ih hmiddle) moved (ih hrest)
      · cases hrest
        exact .collectFailure (ih hmiddle)
      · cases hrest

/-- Every finished run is put together from finished runs of its parts. -/
theorem Yields.finishes {α : Type} {parser : Parser R α} {c d : S} {result : Result α}
    (h : parser.Yields grammar c (.finished d result)) : Finishes grammar parser c d result := by
  obtain ⟨depth, found⟩ := yields_iff_evaluate.1 h
  exact finishes_of_evaluate found

end Parsing.Parser
