import Parsing.Proofs.Json.Standard
import Parsing.Proofs.Json.Values
import Parsing.Proofs.Run.Termination

/-!
# Documents are always read to an end

Arrays and objects hold values, so the grammar is recursive. But a bracket is consumed before the items in it
are looked at, so a rule is started again only further on, and the document comes to an end at some point. That
an item or a separator is given back changes nothing, as the rules inside have come to an end before.

So a document is always read to an end, well-formed or not, on a text and on a source, and the run is never
stopped.
-/

namespace Parsing

open Parsing.Parser Bytes

variable {R : Type → Type} {S : Type} [Cursor S] {α : Type} {opens : S → List (Cursor.Point S × Nat) → Prop}
  {c d : S} {marks : List (Cursor.Point S × Nat)}

/-- A character that has been looked at is consumed when it is read. -/
def Cursor.Consumes (S : Type) [Cursor S] : Prop :=
  ∀ c : S, (Cursor.peek c).1 ≠ none →
    Cursor.position (Cursor.peek c).2 < Cursor.position (Cursor.read (Cursor.peek c).2).2

/-- A text cursor consumes a character that it has looked at. -/
theorem TextCursor.consumes : Cursor.Consumes TextCursor := by
  intro c found
  change c.position < c.read.2.position
  rw [TextCursor.read]
  cases hrest : c.rest with
  | nil => exact absurd (congrArg List.head? hrest) found
  | cons char rest => exact Nat.lt_succ_self _

/-- A cursor over bytes consumes a character that it has looked at. -/
theorem ByteCursor.consumes : Cursor.Consumes ByteCursor := by
  intro c found
  change c.peek.1 ≠ none at found
  change c.peek.2.position < c.peek.2.read.2.position
  obtain ⟨char, hpeeked⟩ : ∃ char, c.peek.2.peeked = some char := by
    unfold ByteCursor.peek at found ⊢
    cases hpeeked : c.peeked with
    | some char => exact ⟨char, hpeeked⟩
    | none =>
      rw [hpeeked] at found
      exact Option.ne_none_iff_exists'.1 found
  simp only [ByteCursor.read, hpeeked]
  exact Nat.lt_succ_self _

/-- An exact match of some text moves on. -/
theorem Cursor.Honours.literal_advances (honours : Cursor.Honours S opens) (consumes : Cursor.Consumes S)
    {grammar : Grammar R} {expected : String} (nonempty : expected.toList ≠ []) {value : String} {position : Nat}
    (matched : (literal expected).Yields grammar c (.finished d (.success value position)))
    (opened : opens c marks) : Cursor.position c < Cursor.position d := by
  obtain ⟨char, rest, hchars⟩ := List.exists_cons_of_ne_nil nonempty
  obtain ⟨marked, here⟩ := honours.mark opened
  obtain ⟨looked, stays⟩ := honours.peek marked
  obtain ⟨consumed, -⟩ := honours.read looked
  rw [literal, hchars] at matched
  obtain ⟨⟨e, found | failures⟩ | ⟨why, e⟩, part, released⟩ := yields_attempt_iff.1 matched
  · cases released
    have ran := yields_scan_iff.1 part
    rw [Scan.run, matchChars, Scan.run] at ran
    dsimp only at ran
    by_cases present : (Cursor.peek (Cursor.mark c).2).1 = some char
    · have onwards := consumes (Cursor.mark c).2 (present ▸ Option.some_ne_none char)
      obtain ⟨after, forwards⟩ :=
        honours.scan (matchChars expected (Cursor.position (Cursor.mark c).2) rest) consumed
      rw [if_pos present, Scan.run] at ran
      dsimp only at ran
      split at ran
      · next result d scanned =>
        cases ran
        rw [scanned] at after forwards
        rw [(honours.release after).2]
        omega
      · cases ran
    · rw [if_neg present, Scan.run] at ran
      cases ran
  · cases released
  · cases released

namespace Json

variable {size : Nat}

/-- A list in brackets is read to an end if all rules are behind its opening bracket. -/
theorem halts_listed (honours : Cursor.Honours S opens) (consumes : Cursor.Consumes S)
    (inside : ∀ d marks, opens d marks → Cursor.position d ≤ size) {opening : String}
    (nonempty : opening.toList ≠ []) (closing : String) (item : Parser Rule α) (opened : opens c marks)
    (calls : ∀ {β : Type} (rule : Rule β) d marks, opens d marks → Cursor.position c < Cursor.position d →
      (call rule).Halts grammar d) : (listed opening closing item).Halts grammar c := by
  apply honours.halts_enclosedBy inside _ _ opened _ _ calls
  · exact honours.halts inside _ opened ⟨trivial, fun _ => ⟨trivial, trivial⟩⟩
  · intro d value position bracket
    obtain ⟨⟨e, bracketed | failures⟩ | ⟨why, e⟩, first, space⟩ := yields_bind_iff.1 bracket
    · have onwards := honours.literal_advances consumes nonempty first opened
      obtain ⟨opened', -⟩ := honours.finishes first.finishes opened
      exact Nat.lt_of_lt_of_le onwards (honours.finishes space.finishes opened').2
    · cases space
    · cases space

/-- The rules are read to an end wherever they are started. -/
theorem rules_halt (honours : Cursor.Honours S opens) (consumes : Cursor.Consumes S)
    (inside : ∀ d marks, opens d marks → Cursor.position d ≤ size) {β : Type} (rule : Rule β) (c : S)
    (marks : List (Cursor.Point S × Nat)) (opened : opens c marks) : (call rule).Halts grammar c := by
  induction hleft : size - Cursor.position c using Nat.strongRecOn generalizing β rule c marks with
  | _ left ih =>
    have calls {γ : Type} (other : Rule γ) (d : S) (marks : List (Cursor.Point S × Nat))
        (opened' : opens d marks) (onwards : Cursor.position c < Cursor.position d) :
        (call other).Halts grammar d := by
      have bound := inside d marks opened'
      exact ih (size - Cursor.position d) (by omega) other d marks opened' rfl
    rw [halts_call_iff]
    cases rule with
    | array =>
      rw [grammar, array_eq]
      exact halts_listed honours consumes inside (by decide) _ _ opened calls
    | object =>
      rw [grammar, object_eq]
      exact (halts_listed honours consumes inside (by decide) _ _ opened calls).map _

/-- A document is read to an end if no cursor gets behind the end of its input. -/
theorem exists_yields_finished (consumes : Cursor.Consumes S) (bounded : Cursor.Bounded c) (options : Options) :
    ∃ d result, (document options).Yields grammar c (.finished d result) := by
  obtain ⟨opens, size, honours, inside, opened⟩ := bounded
  have halts : (document options).Halts grammar c :=
    honours.halts inside _ opened (eachCall_of_forall (fun rule d marks opened _ =>
      rules_halt honours consumes inside rule d marks opened) _)
  obtain ⟨⟨d, result⟩ | ⟨why, d⟩, yields⟩ := halts
  · exact ⟨d, result, yields⟩
  · exact absurd yields ((avoids_document why S options).not_stopped (avoids_grammar why S) c d)

/-- A document is always read to an end and the run is never stopped, whether other input may follow it or not: on
every text, and on every source, whatever its bytes are and whatever faults are met, from every cursor that can be come
by. -/
theorem document_finishes (options : Options) :
    (∀ text points c, Cursor.Reached (TextCursor.ofText text) points c →
      ∃ d result, (document options).Yields grammar c (.finished d result)) ∧
    (∀ source capacity points c, Cursor.Reached (ByteCursor.ofSource source capacity) points c →
      ∃ d result, (document options).Yields grammar c (.finished d result)) := by
  constructor
  · intro text points c reached
    exact exists_yields_finished TextCursor.consumes (TextCursor.bounded reached) options
  · intro source capacity points c reached
    exact exists_yields_finished ByteCursor.consumes (ByteCursor.bounded reached) options

/-- Brackets that are not closed, on a text, and on bytes that break down inside a member and cannot be moved. -/
theorem document_finishes_unclosed :
    (∃ d result, (document {}).Yields grammar (TextCursor.ofText "[[1, \x7b\"a\":")
      (.finished d result)) ∧
    ∃ d result, (document { allowTrailingInput := true }).Yields grammar
      (Cursor.read (ByteCursor.ofSource { Source.ofBytes #[0x20, 0x7b, 0x22, 0x61, 0x22, 0x3a, 0x5b, 0xff] with
        chunk := some 1, moveFault := fun _ => some ⟨.other, "cannot move"⟩ } 2)).2 (.finished d result) := by
  obtain ⟨onText, -⟩ := document_finishes {}
  obtain ⟨-, onSource⟩ := document_finishes { allowTrailingInput := true }
  exact ⟨onText _ _ _ .start, onSource _ _ _ _ Cursor.Reached.start.read⟩

end Json

end Parsing
