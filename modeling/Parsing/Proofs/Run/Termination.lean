import Parsing.Proofs.Cursor.Coherence
import Parsing.Proofs.Machine.Halting
import Parsing.Proofs.Parser.Standard

/-!
# Parsers without recursion always come to an end

However repetitions are nested, and be it that items, separators and delimiters match without consuming
anything: without recursion every run comes to an end. Nothing is asked of the parser but that. On a text this
holds from every cursor that can be come by, and so it does on a source, whatever its bytes are, in whatever
pieces they come, and whatever its reads and moves fail with.

The end may be that the run is stopped for want of room. Only a block of characters and a repetition for a number
of times ask for room, and there is too little only for numbers that no document can have use for.
-/

namespace Parsing

open Parsing.Parser Bytes

variable {R : Type → Type} {S : Type} [Cursor S] {α : Type}

/-- A run that starts at this cursor never gets behind the end of a document of some size, as the marks are
honoured that it uses as a stack. -/
def Cursor.Bounded (c : S) : Prop :=
  ∃ (opens : S → List (Cursor.Point S × Nat) → Prop) (size : Nat), Cursor.Honours S opens ∧
    (∀ d marks, opens d marks → Cursor.position d ≤ size) ∧ opens c []

/-- No run gets behind the end of the document from a cursor that can be come by, if no such cursor is there. -/
theorem Cursor.Closed.bounded {holds : S → Prop} {valid : Cursor.Point S → Prop}
    (closed : Cursor.Closed S holds valid) {opens : S → List (Cursor.Point S × Nat) → Prop}
    (honours : Cursor.Honours S opens) (fresh : ∀ c, opens c []) {size : Nat}
    (inside : ∀ c, holds c → Cursor.position c ≤ size) {start c : S} (h : holds start)
    {points : List (Cursor.Point S)} (reached : Cursor.Reached start points c) : Cursor.Bounded c :=
  ⟨_, size, closed.honours honours, fun d _ held => inside d held.2.1, fresh c,
    (closed.reached h reached).1, List.forall_mem_nil _⟩

/-- Runs on a text do not get behind its end. -/
theorem TextCursor.bounded {text : String} {points : List Point} {c : TextCursor}
    (reached : Cursor.Reached (TextCursor.ofText text) points c) : Cursor.Bounded c := by
  have inside (d : TextCursor) :
      (∃ index ≤ text.toList.length, d = standing text.toList index) → d.position ≤ text.toList.length := by
    rintro ⟨index, inside, rfl⟩
    exact inside
  exact (closed_standing text.toList).bounded honours (fun _ => List.forall_mem_nil _) inside
    ⟨0, Nat.zero_le _, ofText_eq_standing text⟩ reached

/-- Runs on a source do not get behind the end of its document, whatever faults are met. -/
theorem ByteCursor.bounded {source : Source} {capacity : Nat} {points : List Point} {c : ByteCursor}
    (reached : Cursor.Reached (ByteCursor.ofSource source capacity) points c) : Cursor.Bounded c := by
  obtain ⟨chars, stop, hdoc⟩ := source.delivering.exists_decodes
  obtain ⟨stands, serves, fresh⟩ := exists_servesMoved hdoc
  exact (Coherent.closed serves).bounded honours (fun _ => List.forall_mem_nil _)
    (fun _ coherent => coherent.inside) (coherent_ofSource fresh capacity) reached

/-- Neither the parser nor a rule ever asks for more room than there can be, on cursors of type `S`. -/
structure Parser.Roomy (grammar : Grammar R) (S : Type) [Cursor S] (parser : Parser R α) : Prop where
  parser : parser.Avoids .overflow S
  rules : ∀ β rule, (grammar β rule).Avoids .overflow S

/-- A run is only stopped for want of room if room is asked for in vain. -/
theorem Parser.Roomy.not_overflows {grammar : Grammar R} {parser : Parser R α} (h : parser.Roomy grammar S)
    (c : S) : ¬parser.Overflows grammar c :=
  fun ⟨d, ran⟩ => Avoids.not_stopped h.rules h.parser c d ran

/-- Without recursion every parser comes to an end, on every text and on every source, whatever faults are met,
from every cursor that can be come by. It is not stopped for want of room if it asks for none in vain. By
`Standard.avoids` this is so for all that is built from the primitive parsers, as long as there is room for every
block of characters and for the values of every repetition for a number of times. Where there is not, the run is
stopped for that, wherever it starts. -/
theorem nonrecursive_parsers_halt (grammar : Grammar R) (nonrecursive : grammar.Nonrecursive)
    (parser : Parser R α) :
    (∀ text points c, Cursor.Reached (TextCursor.ofText text) points c →
      parser.Halts grammar c ∧ (parser.Roomy grammar TextCursor → parser.Completes grammar c)) ∧
    (∀ source capacity points c, Cursor.Reached (ByteCursor.ofSource source capacity) points c →
      parser.Halts grammar c ∧ (parser.Roomy grammar ByteCursor → parser.Completes grammar c)) ∧
    (∀ count, maxRoom < count → (∀ c : TextCursor, (characters count).Overflows grammar c) ∧
      ∀ c : ByteCursor, (characters count).Overflows grammar c) ∧
    (∀ size count, maxRoom < count * size → (∀ c : TextCursor, (parser.replicate size count).Overflows grammar c) ∧
      ∀ c : ByteCursor, (parser.replicate size count).Overflows grammar c) := by
  refine ⟨?_, ?_, ?_, ?_⟩
  · intro text points c reached
    obtain ⟨opens, size, honours, inside, opened⟩ := TextCursor.bounded reached
    have halts := honours.halts_of_nonrecursive inside nonrecursive parser opened
    exact ⟨halts, fun roomy => ⟨halts, roomy.not_overflows c⟩⟩
  · intro source capacity points c reached
    obtain ⟨opens, size, honours, inside, opened⟩ := ByteCursor.bounded reached
    have halts := honours.halts_of_nonrecursive inside nonrecursive parser opened
    exact ⟨halts, fun roomy => ⟨halts, roomy.not_overflows c⟩⟩
  · exact fun count lacks => ⟨characters_overflows lacks, characters_overflows lacks⟩
  · exact fun size count lacks => ⟨replicate_overflows lacks parser, replicate_overflows lacks parser⟩

/-- Repetitions of items that may be empty, on a text, and on bytes that end in a malformed character, come one
at a time, and cannot be moved. There is no room for as many characters as can be counted in 64 bits. -/
theorem nonrecursive_parsers_halt_nested :
    Grammar.empty.Nonrecursive ∧
    (many (many (optional (literal "a")))).Completes Grammar.empty (TextCursor.ofText "aab") ∧
    (manyTill (many (optional (literal "a"))) (literal "b")).Halts Grammar.empty
      (Cursor.read (ByteCursor.ofSource { Source.ofBytes #[97, 97, 98, 0xff] with
        chunk := some 1, moveFault := fun _ => some ⟨.other, "cannot move"⟩ } 2)).2 ∧
    (characters 18446744073709551615).Overflows Grammar.empty (TextCursor.ofText "abc") := by
  obtain ⟨onText, -, lacking, -⟩ := nonrecursive_parsers_halt Grammar.empty Grammar.nonrecursive_empty
    (many (many (optional (literal "a"))))
  obtain ⟨-, onSource, -⟩ := nonrecursive_parsers_halt Grammar.empty Grammar.nonrecursive_empty
    (manyTill (many (optional (literal "a"))) (literal "b"))
  have standard : (many (many (optional (literal "a"))) : Parser NoRule (List (List (Option String)))).Standard
      fun _ => False := (standard_literal "a").optional.many.many
  have roomy : (many (many (optional (literal "a")))).Roomy Grammar.empty TextCursor :=
    ⟨standard.avoids id, fun _ rule => nomatch rule⟩
  exact ⟨Grammar.nonrecursive_empty, (onText _ _ _ .start).2 roomy,
    (onSource _ _ _ _ Cursor.Reached.start.read).1, (lacking _ (by decide)).1 _⟩

end Parsing
