import Parsing.Proofs.Cursor.Forward
import Parsing.Proofs.Parser.Equivalence

/-!
# Repetitions as recursion

The repetitions run in a loop that carries along what has been collected. They are equivalent to what one
would write down by recursion: one round, and then the repetition again. Of all that satisfies this equation
the loop means the least, so it also means the same as a rule of a grammar that refers to itself in this way,
and it ends exactly if that does.

Lists of values grow at their end in a loop and at their front in recursion; this is all the difference there
is.
-/

namespace Parsing.Parser

variable {R : Type → Type} {S : Type} [Cursor S] {α β γ : Type} {grammar : Grammar R}

/-- Succeed with the place where the cursor is. -/
def here : Parser R Nat := scan (.position fun place => .finish (.success place place))

/-- One round of a repetition, and the rest of it unless the round yields nothing or consumes nothing. -/
def roundThen (item : Parser R (Option α)) (rest : Parser R (List α)) : Parser R (List α) :=
  bind here fun origin => bind item fun
    | none => unit []
    | some value => bind here fun place =>
      if place = origin then unit [value] else map (value :: ·) rest

/-- The item of `manyTill`: nothing if the delimiter matches, or else a value. -/
def tillItem (item : Parser R α) (delimiter : Parser R β) : Parser R (Option α) :=
  choice (map (fun _ => none) delimiter) (map some item)

namespace Meaning

/-- One round, and the rest unless the round yields nothing or consumes nothing. -/
def roundThen (item : Meaning S (Option α)) (rest : Meaning S (List α)) : Meaning S (List α) := fun c o =>
  ∃ middle, item c middle ∧
    match middle with
    | .finished d (.ok none) => o = .finished d (.ok [])
    | .finished d (.ok (some value)) =>
      if Cursor.position d = Cursor.position c then o = .finished d (.ok [value])
      else ∃ last, rest d last ∧ o = last.map (value :: ·)
    | .finished d (.error failures) => o = .finished d (.error failures)
    | .stopped why => o = .stopped why

variable {item : Meaning S (Option α)}

/-- A rest that means more makes the whole mean more. -/
theorem roundThen_mono {rest other : Meaning S (List α)} (h : ∀ c o, rest c o → other c o) {c : S}
    {o : Observed S (List α)} (round : item.roundThen rest c o) : item.roundThen other c o := by
  obtain ⟨middle, first, last⟩ := round
  refine ⟨middle, first, ?_⟩
  rcases middle with ⟨d, failures | _ | value⟩ | _
  · exact last
  · exact last
  · dsimp only at last ⊢
    split at last
    · next same => rwa [if_pos same]
    · next moved =>
      rw [if_neg moved]
      obtain ⟨final, found, rfl⟩ := last
      exact ⟨final, h d final found, rfl⟩
  · exact last

/-- Values from before come first in what is observed of the last round. -/
theorem lastRound_append (origin : S) (before values : List α) (last : Observed S (Option α)) :
    lastRound origin (before ++ values) last = (lastRound origin values last).map (.map (before ++ ·)) := by
  rcases last with ⟨d, failures | _ | value⟩ | _
  · rfl
  · rfl
  · dsimp only [lastRound]
    split
    · rw [List.append_assoc]
      rfl
    · rfl
  · rfl

/-- A round may be all there is. -/
theorem roundThen_of_lastRound {rest : Meaning S (List α)} {c : S} {last : Observed S (Option α)}
    {o : Observed S (List α)} (round : item c last) (closes : lastRound c [] last = some o) :
    item.roundThen rest c o := by
  refine ⟨last, round, ?_⟩
  rcases last with ⟨d, failures | _ | value⟩ | _
  · cases closes
    rfl
  · cases closes
    rfl
  · dsimp only [lastRound] at closes ⊢
    split at closes
    · next same =>
      cases closes
      rw [if_pos same]
      rfl
    · cases closes
  · cases closes
    rfl

/-- A round that consumes something is followed by the rest. -/
theorem roundThen_of_more {rest : Meaning S (List α)} {c d : S} {value : α} {o : Observed S (List α)}
    (round : item c (.finished d (.ok (some value)))) (moved : Cursor.position d ≠ Cursor.position c)
    (more : rest d o) : item.roundThen rest c (o.map (value :: ·)) := by
  refine ⟨_, round, ?_⟩
  dsimp only
  rw [if_neg moved]
  exact ⟨o, more, rfl⟩

/-- Values from before come first in what a repetition collects. -/
theorem collect_eq_map (before : List α) :
    item.collect before = (item.collect []).map (before ++ ·) := by
  funext c o
  apply propext
  constructor
  · rintro ⟨values, d, last, rounds, final, ended⟩
    rw [lastRound_append, Option.map_eq_some_iff] at ended
    obtain ⟨part, ended, rfl⟩ := ended
    exact ⟨part, ⟨values, d, last, rounds, final, ended⟩, rfl⟩
  · rintro ⟨part, ⟨values, d, last, rounds, final, ended⟩, rfl⟩
    refine ⟨values, d, last, rounds, final, ?_⟩
    rw [lastRound_append, Option.map_eq_some_iff]
    exact ⟨part, ended, rfl⟩

/-- Of all that means at least one round and then itself, a repetition means the least. -/
theorem collect_least {m : Meaning S (List α)} (h : ∀ c o, item.roundThen m c o → m c o) {c : S}
    {o : Observed S (List α)} (found : item.collect [] c o) : m c o := by
  obtain ⟨values, d, last, rounds, final, ended⟩ := found
  induction rounds generalizing o with
  | none c => exact h c o (roundThen_of_lastRound final ended)
  | @more c d e value values round moved rest ih =>
    change lastRound e ([value] ++ values) last = some o at ended
    rw [lastRound_append, Option.map_eq_some_iff] at ended
    obtain ⟨part, ended, rfl⟩ := ended
    exact h c _ (roundThen_of_more round moved (ih final ended))

/-- A repetition is one round and then, if there is more to come, the repetition. -/
theorem collect_eq_roundThen : item.collect [] = item.roundThen (item.collect []) := by
  have back (c : S) (o : Observed S (List α)) (h : item.roundThen (item.collect []) c o) :
      item.collect [] c o := by
    obtain ⟨middle, first, rest⟩ := h
    have closes (h : lastRound c [] middle = some o) : item.collect [] c o :=
      ⟨[], c, middle, .none c, first, h⟩
    rcases middle with ⟨d, failures | _ | value⟩ | _
    · exact closes (congrArg some rest.symm)
    · exact closes (congrArg some rest.symm)
    · dsimp only at rest
      split at rest
      · next same =>
        apply closes
        rw [lastRound, if_pos same, rest]
        rfl
      · next moved =>
        obtain ⟨part, ⟨values, e, last, rounds, final, ended⟩, rfl⟩ := rest
        refine ⟨value :: values, e, last, .more first moved rounds, final, ?_⟩
        change lastRound e ([value] ++ values) last = _
        rw [lastRound_append, Option.map_eq_some_iff]
        exact ⟨part, ended, rfl⟩
    · exact closes (congrArg some rest.symm)
  funext c o
  apply propext
  constructor
  · -- one more round of the repetition is at least itself, so the least is below it
    exact collect_least fun c o => roundThen_mono back
  · exact back c o

end Meaning

/-- Asking where the cursor is changes nothing. -/
theorem meaning_here_bind (next : Nat → Meaning S α) :
    (here.meaning grammar).bind next = fun c o => next (Cursor.position c) c o := by
  funext c o
  apply propext
  constructor
  · rintro ⟨middle, place, rest⟩
    cases meaning_scan.1 place
    exact rest
  · intro rest
    exact ⟨_, meaning_scan.2 rfl, rest⟩

/-- Asking where the cursor is, first. -/
theorem meaning_bind_here {next : Nat → Parser R α} {c : S} {o : Observed S α} :
    (bind here next).meaning grammar c o ↔ (next (Cursor.position c)).meaning grammar c o := by
  rw [meaning_bind, meaning_here_bind]

/-- A round with a rest means what it should. -/
theorem meaning_roundThen (item : Parser R (Option α)) (rest : Parser R (List α)) :
    (roundThen item rest).meaning (S := S) grammar =
      (item.meaning grammar).roundThen (rest.meaning grammar) := by
  funext c o
  rw [roundThen, meaning_bind_here, meaning_bind]
  apply propext
  apply exists_congr
  intro middle
  apply and_congr_right
  intro round
  rcases middle with ⟨d, failures | _ | value⟩ | _
  · rfl
  · exact Iff.of_eq (congrFun (congrFun (meaning_unit []) d) o)
  · apply meaning_bind_here.trans
    dsimp only
    split
    · rw [meaning_unit]
      rfl
    · rw [meaning_map]
      rfl
  · rfl

/-- What is observed of direct evaluation at a depth. -/
def evaluated (grammar : Grammar R) (depth : Nat) (parser : Parser R α) : Meaning S α := fun c o =>
  ∃ halt, evaluate grammar depth parser c = some halt ∧ halt.observed = o

/-- The parts of a sequence are evaluated at the depth of the sequence, if not at a smaller one. -/
theorem evaluated_bind {depth : Nat} {first : Parser R α} {next : α → Parser R β} {c : S}
    {o : Observed S β} (h : evaluated grammar depth (bind first next) c o) :
    ((first.meaning grammar).bind fun value => evaluated grammar depth (next value)) c o := by
  obtain ⟨halt, found, rfl⟩ := h
  cases depth with
  | zero => cases found
  | succ depth =>
    obtain ⟨middle, hmiddle, hrest⟩ := Option.bind_eq_some_iff.1 found
    refine ⟨middle.observed, ⟨middle, yields_of_evaluate hmiddle, rfl⟩, ?_⟩
    rcases middle with ⟨d, value | failures⟩ | ⟨why, d⟩
    · exact ⟨halt, evaluate_succ halt hrest, rfl⟩
    · cases hrest
      rfl
    · cases hrest
      rfl

/-- A parser whose value is changed is evaluated at the same depth, if not at a smaller one. -/
theorem evaluated_map {depth : Nat} {f : α → β} {parser : Parser R α} {c : S} {o : Observed S β}
    (h : evaluated grammar depth (map f parser) c o) : (evaluated grammar depth parser).map f c o := by
  obtain ⟨halt, found, rfl⟩ := h
  cases depth with
  | zero => cases found
  | succ depth =>
    obtain ⟨middle, hmiddle, hrest⟩ := Option.bind_eq_some_iff.1 found
    refine ⟨middle.observed, ⟨middle, evaluate_succ middle hmiddle, rfl⟩, ?_⟩
    cases middle with
    | finished d result =>
      cases hrest
      exact Halt.observed_map f (.finished d result)
    | stopped why d =>
      cases hrest
      rfl

/-- What is evaluated is meant. -/
theorem meaning_of_evaluated {depth : Nat} {parser : Parser R α} {c : S} {o : Observed S α}
    (h : evaluated grammar depth parser c o) : parser.meaning grammar c o := by
  obtain ⟨halt, found, observed⟩ := h
  exact ⟨halt, yields_of_evaluate found, observed⟩

/-- A round with a rest is evaluated like a round, and the rest at the same depth. -/
theorem evaluated_roundThen {depth : Nat} {item : Parser R (Option α)} {rest : Parser R (List α)} {c : S}
    {o : Observed S (List α)} (h : evaluated grammar depth (roundThen item rest) c o) :
    (item.meaning grammar).roundThen (evaluated grammar depth rest) c o := by
  have round := evaluated_bind h
  rw [meaning_here_bind] at round
  obtain ⟨middle, first, last⟩ := evaluated_bind round
  refine ⟨middle, first, ?_⟩
  rcases middle with ⟨d, failures | _ | value⟩ | _
  · exact last
  · have found := meaning_of_evaluated last
    rwa [meaning_unit] at found
  · have found := evaluated_bind last
    rw [meaning_here_bind] at found
    dsimp only at found ⊢
    split at found
    · next same =>
      have closes := meaning_of_evaluated found
      rw [meaning_unit] at closes
      rwa [if_pos same]
    · next moved =>
      rw [if_neg moved]
      exact evaluated_map found
  · exact last

/-- A rule that stands for one round and then itself means the repetition. -/
theorem meaning_call_eq_collect {rule : R (List α)} {item : Parser R (Option α)}
    (h : grammar (List α) rule = roundThen item (call rule)) :
    (call rule).meaning (S := S) grammar = (item.meaning grammar).collect [] := by
  have shallow (depth : Nat) (c : S) (o : Observed S (List α))
      (found : evaluated grammar depth (call rule) c o) : (item.meaning grammar).collect [] c o := by
    -- a depth that is enough for the rule leaves one less for the rule inside of what it stands for
    induction depth generalizing c o with
    | zero =>
      obtain ⟨halt, found, -⟩ := found
      cases found
    | succ depth ih =>
      have body : evaluated grammar depth (roundThen item (call rule)) c o := h ▸ found
      rw [Meaning.collect_eq_roundThen]
      exact Meaning.roundThen_mono ih (evaluated_roundThen body)
  funext c o
  apply propext
  constructor
  · rintro ⟨halt, yields, rfl⟩
    obtain ⟨depth, found⟩ := yields_iff_evaluate.1 yields
    exact shallow depth c _ ⟨halt, found, rfl⟩
  · apply Meaning.collect_least
    intro c o round
    rwa [meaning_call, h, meaning_roundThen]

/-- A repetition is equivalent to one round and then the repetition. -/
theorem collect_equivalent_roundThen (item : Parser R (Option α)) :
    Equivalent grammar S (collect item []) (roundThen item (collect item [])) := by
  rw [equivalent_iff, meaning_roundThen, meaning_collect]
  exact Meaning.collect_eq_roundThen

/-- A repetition is equivalent to a rule that stands for one round and then itself. -/
theorem collect_equivalent_call {rule : R (List α)} {item : Parser R (Option α)}
    (h : grammar (List α) rule = roundThen item (call rule)) :
    Equivalent grammar S (collect item []) (call rule) := by
  rw [equivalent_iff, meaning_call_eq_collect h, meaning_collect]
  rfl

/-- A repetition that starts with a value puts it in front. -/
theorem collect_singleton_equivalent (item : Parser R (Option α)) (value : α) :
    Equivalent grammar S (collect item [value]) (map (value :: ·) (collect item [])) := by
  rw [equivalent_iff, meaning_map, meaning_collect, meaning_collect, Meaning.collect_eq_map]
  rfl

/-- To repeat at least once is to run the parser and then to repeat. -/
theorem many1_equivalent (parser : Parser R α) :
    Equivalent grammar S parser.many1 (bind parser fun value => map (value :: ·) parser.many) := by
  apply Equivalent.bind (.refl parser)
  intro value
  exact collect_singleton_equivalent (tryItem parser) value

/-- To repeat with separators is to try the parser, and then to repeat it behind the separator. -/
theorem separatedBy_equivalent (parser : Parser R α) (separator : Parser R β) :
    Equivalent grammar S (parser.separatedBy separator)
      (bind (tryItem parser) fun
        | none => unit []
        | some value => map (value :: ·) (many (chain separator parser))) := by
  apply Equivalent.bind (.refl (tryItem parser))
  intro found
  cases found with
  | none => exact .refl _
  | some value => exact collect_singleton_equivalent (tryItem (chain separator parser)) value

/-- A repetition succeeds behind its last round, which yields nothing or consumes nothing. -/
theorem meaning_collect_ok_iff {item : Parser R (Option α)} {c d : S} {values : List α} :
    (collect item []).meaning grammar c (.finished d (.ok values)) ↔
      (∃ e, (item.meaning grammar).Rounds c values e ∧
        item.meaning grammar e (.finished d (.ok none))) ∨
      ∃ before last e, values = before ++ [last] ∧ (item.meaning grammar).Rounds c before e ∧
        item.meaning grammar e (.finished d (.ok (some last))) ∧ Cursor.position d = Cursor.position e := by
  rw [meaning_collect]
  constructor
  · rintro ⟨before, e, ⟨f, failures | _ | last⟩ | _, rounds, final, ended⟩
    · cases ended
    · cases ended
      exact .inl ⟨e, rounds, final⟩
    · dsimp only [Meaning.lastRound] at ended
      split at ended
      · next same =>
        cases ended
        exact .inr ⟨before, last, e, rfl, rounds, final, same⟩
      · cases ended
    · cases ended
  · rintro (⟨e, rounds, final⟩ | ⟨before, last, e, rfl, rounds, final, same⟩)
    · exact ⟨values, e, _, rounds, final, rfl⟩
    · refine ⟨before, e, _, rounds, final, ?_⟩
      dsimp only [Meaning.lastRound]
      rw [if_pos same]
      rfl

/-- A repetition fails exactly if one of its rounds does, and with the failures of that round alone. -/
theorem meaning_collect_error_iff {item : Parser R (Option α)} {c d : S} {failures : Failures} :
    (collect item []).meaning grammar c (.finished d (.error failures)) ↔
      ∃ values e, (item.meaning grammar).Rounds c values e ∧
        item.meaning grammar e (.finished d (.error failures)) := by
  rw [meaning_collect]
  constructor
  · rintro ⟨values, e, last, rounds, final, ended⟩
    refine ⟨values, e, rounds, ?_⟩
    rcases last with ⟨f, fails | _ | value⟩ | _
    · cases ended
      exact final
    · cases ended
    · dsimp only [Meaning.lastRound] at ended
      split at ended <;> cases ended
    · cases ended
  · rintro ⟨values, e, rounds, final⟩
    exact ⟨values, e, _, rounds, final, rfl⟩

/-- A repetition is stopped exactly if one of its rounds is. -/
theorem meaning_collect_stopped_iff {item : Parser R (Option α)} {why : Stop} {c : S} :
    (collect item []).meaning grammar c (.stopped why) ↔
      ∃ values e, (item.meaning grammar).Rounds c values e ∧ item.meaning grammar e (.stopped why) := by
  rw [meaning_collect]
  constructor
  · rintro ⟨values, e, ⟨f, failures | _ | last⟩ | reason, rounds, final, ended⟩
    · cases ended
    · cases ended
    · dsimp only [Meaning.lastRound] at ended
      split at ended <;> cases ended
    · cases ended
      exact ⟨values, e, rounds, final⟩
  · rintro ⟨values, e, rounds, final⟩
    exact ⟨values, e, _, rounds, final, rfl⟩

/-- Values from before are put in front. -/
theorem repeatAfter_equivalent (parser : Parser R α) (newestFirst : List α) (count : Nat) :
    Equivalent grammar S (parser.repeatAfter newestFirst count)
      (map (newestFirst.reverse ++ ·) (parser.repeatAfter [] count)) := by
  induction count generalizing newestFirst with
  | zero =>
    rw [equivalent_iff, meaning_map, repeatAfter, repeatAfter, meaning_unit, meaning_unit,
      Meaning.map_eq_bind, Meaning.unit_bind, List.reverse_nil, List.append_nil]
  | succ count ih =>
    rw [equivalent_iff, meaning_map, repeatAfter, repeatAfter, meaning_bind, meaning_bind,
      Meaning.map_bind]
    congr 1
    funext value
    rw [equivalent_iff.1 (ih (value :: newestFirst)), equivalent_iff.1 (ih [value]), meaning_map,
      meaning_map, Meaning.map_map]
    congr 1
    funext values
    rw [List.reverse_cons, List.append_assoc]
    rfl

/-- One more repetition, at the front. -/
theorem meaning_repeatAfter_succ (parser : Parser R α) (count : Nat) :
    (parser.repeatAfter [] (count + 1)).meaning (S := S) grammar =
      (parser.meaning grammar).bind fun value =>
        ((parser.repeatAfter [] count).meaning grammar).map (value :: ·) := by
  rw [repeatAfter, meaning_bind]
  congr 1
  funext value
  rw [equivalent_iff.1 (repeatAfter_equivalent parser [value] count), meaning_map]
  rfl

/-- Without a bound on the room, to repeat is to repeat as often as one likes, and then to repeat the rest. -/
theorem repeatAfter_add_equivalent (parser : Parser R α) (count more : Nat) :
    Equivalent grammar S (parser.repeatAfter [] (count + more))
      (bind (parser.repeatAfter [] count) fun values => map (values ++ ·) (parser.repeatAfter [] more)) := by
  rw [equivalent_iff, meaning_bind]
  induction count with
  | zero =>
    rw [Nat.zero_add, repeatAfter, meaning_unit, Meaning.unit_bind, meaning_map]
    exact (Meaning.map_id _).symm
  | succ count ih =>
    rw [Nat.add_right_comm, meaning_repeatAfter_succ, meaning_repeatAfter_succ, ih, Meaning.bind_assoc]
    congr 1
    funext value
    rw [Meaning.map_bind, Meaning.bind_map]
    congr 1
    funext values
    rw [meaning_map, meaning_map, Meaning.map_map]
    rfl

/-- To repeat no times takes no room and consumes nothing. -/
theorem replicate_zero (size : Nat) (parser : Parser R α) : parser.replicate size 0 = unit [] := by
  rw [replicate, Nat.zero_mul, withRoom_of_le (Nat.zero_le _), repeatAfter]
  rfl

/-- To repeat once is to make a list of the value. -/
theorem replicate_one_equivalent {size : Nat} (fits : size ≤ maxRoom) (parser : Parser R α) :
    Equivalent grammar S (parser.replicate size 1) (map (fun value => [value]) parser) := by
  rw [replicate, Nat.one_mul, withRoom_of_le fits, equivalent_iff, meaning_repeatAfter_succ, meaning_map,
    Meaning.map_eq_bind]
  congr 1
  funext value
  rw [repeatAfter, meaning_unit, Meaning.map_eq_bind, Meaning.unit_bind]
  rfl

/-- To repeat is to repeat as often as one likes, and then to repeat the rest, if there is room for all values. -/
theorem replicate_add_equivalent {size count more : Nat} (fits : (count + more) * size ≤ maxRoom)
    (parser : Parser R α) : Equivalent grammar S (parser.replicate size (count + more))
      (bind (parser.replicate size count) fun values => map (values ++ ·) (parser.replicate size more)) := by
  have split := Nat.add_mul count more size
  rw [replicate, replicate, replicate, withRoom_of_le fits, withRoom_of_le (by omega), withRoom_of_le (by omega)]
  exact repeatAfter_add_equivalent parser count more

/-- If there is no room for all values then to repeat is to stop at once. -/
theorem replicate_of_lacks {size count : Nat} (lacks : maxRoom < count * size) (parser : Parser R α) :
    parser.replicate size count = scan (.stop .overflow) :=
  withRoom_of_lt lacks _

end Parsing.Parser
