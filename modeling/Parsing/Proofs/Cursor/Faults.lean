import Parsing.Cursor.Bytes
import Parsing.Proofs.Machine.Invariant

/-!
# Faults are kept

Whatever a cursor over bytes does, all that happens to its record of faults is that faults are added
to it: the first one is never lost while it has not been taken, and a cursor that has met a fault stays
failed. Since parsers cannot take faults, this holds throughout every run.
-/

namespace Parsing.ByteCursor

/-- From `c` to `after` exactly these faults are met, newest first. -/
structure Meets (c : ByteCursor) (faults : List Fault) (after : ByteCursor) : Prop where
  trail : after.trail = faults ++ c.trail
  failed : after.failed = (c.failed || !faults.isEmpty)
  fault : after.fault = c.fault.or faults.getLast?

variable {c d e : ByteCursor}

/-- A change of anything but the record of faults meets none. -/
theorem Meets.of_eq (trail : d.trail = c.trail) (failed : d.failed = c.failed)
    (fault : d.fault = c.fault) : c.Meets [] d :=
  ⟨by simp [trail], by simp [failed], by simp [fault]⟩

/-- Whatever becomes of the reader, no fault is met by it alone. -/
theorem meets_withReader (c : ByteCursor) (reader : Bytes.Reader) : c.Meets [] { c with reader } :=
  .of_eq rfl rfl rfl

/-- Faults met one after the other. -/
theorem Meets.trans {faults more : List Fault} (first : c.Meets faults d) (second : d.Meets more e) :
    c.Meets (more ++ faults) e where
  trail := by rw [second.trail, first.trail, List.append_assoc]
  failed := by
    rw [second.failed, first.failed, Bool.or_assoc]
    cases faults <;> cases more <;> simp
  fault := by
    rw [second.fault, first.fault, Option.or_assoc]
    cases faults <;> simp [List.getLast?_append]

/-- Meeting one more fault. -/
theorem Meets.fail {faults : List Fault} (met : c.Meets faults d) (fault : Fault) :
    c.Meets (fault :: faults) (d.fail fault) where
  trail := by simp [ByteCursor.fail, met.trail]
  failed := by simp [ByteCursor.fail]
  fault := by
    rw [ByteCursor.fail, met.fault, Option.or_assoc, List.getLast?_cons]
    cases faults.getLast? <;> rfl

/-- What can happen to a cursor when something is looked for behind the bytes handed out so far: the reader moves,
and if nothing is found a fault may be met. -/
inductive Reads {β : Type} (c : ByteCursor) : Option β × ByteCursor → Prop
  | moved (found : Option β) (reader : Bytes.Reader) (physical : Nat) :
      c.Reads (found, { c with reader, physical })
  | fault (reader : Bytes.Reader) (physical : Nat) (fault : Fault) :
      c.Reads (none, fail { c with reader, physical } fault)

/-- Asking for a byte meets one fault at most, and then finds none. -/
theorem reads_nextByte (c : ByteCursor) : c.Reads c.nextByte := by
  unfold nextByte
  split
  · exact .moved (some _) _ _
  · exact .moved none _ c.physical
  · exact .fault _ c.physical _

/-- Asking for bytes meets one fault at most, and then does not find them. -/
theorem reads_nextBytes (count : Nat) (c : ByteCursor) : c.Reads (c.nextBytes count) := by
  induction count generalizing c with
  | zero => exact .moved (some []) c.reader c.physical
  | succ count ih =>
    have first := reads_nextByte c
    rw [nextBytes]
    generalize c.nextByte = report at first ⊢
    cases first with
    | fault reader physical fault => exact .fault reader physical fault
    | moved found reader physical =>
      cases found with
      | none => exact .moved none reader physical
      | some byte =>
        have rest := ih { c with reader, physical }
        simp only
        generalize nextBytes count { c with reader, physical } = report at rest ⊢
        cases rest with
        | fault reader physical fault => exact .fault reader physical fault
        | moved found reader physical =>
          cases found with
          | none => exact .moved none reader physical
          | some bytes => exact .moved (some _) reader physical

/-- Only one fault is met, since decoding stops at it. -/
theorem reads_decode (c : ByteCursor) : c.Reads c.decode := by
  have first := reads_nextByte c
  rw [decode]
  split
  · exact .moved none c.reader c.physical
  · next healthy =>
    generalize c.nextByte = report at first ⊢
    cases first with
    | fault reader physical fault => exact .fault reader physical fault
    | moved found reader physical =>
      cases found with
      | none => exact .moved none reader physical
      | some lead =>
        simp only
        split
        · exact .fault reader physical _
        · next count _ =>
          have rest := reads_nextBytes count { c with reader, physical }
          generalize nextBytes count { c with reader, physical } = report at rest ⊢
          cases rest with
          | fault reader physical fault => exact .fault reader physical fault
          | moved found reader physical =>
            cases found with
            | none =>
              simp only [if_neg healthy]
              exact .fault reader physical _
            | some bytes =>
              simp only
              split
              · exact .moved (some _) reader physical
              · exact .fault reader physical _

/-- Decoding a character adds to the faults. -/
theorem meets_decode (c : ByteCursor) : ∃ faults, c.Meets faults c.decode.2 := by
  have reads := reads_decode c
  generalize c.decode = report at reads ⊢
  cases reads with
  | moved found reader physical => exact ⟨[], .of_eq rfl rfl rfl⟩
  | fault reader physical fault =>
    have moved : c.Meets [] { c with reader, physical } := .of_eq rfl rfl rfl
    exact ⟨_, moved.fail fault⟩

/-- Decoding what is left adds to the faults. -/
theorem meets_decodeAll (c : ByteCursor) (newestFirst : List Char) :
    ∃ faults, c.Meets faults (c.decodeAll newestFirst).2 := by
  fun_induction decodeAll c newestFirst with
  | case1 c newestFirst after ran =>
    have first := meets_decode c
    rwa [ran] at first
  | case2 c newestFirst after char ran ih =>
    obtain ⟨faults, first⟩ := meets_decode c
    obtain ⟨more, rest⟩ := ih
    rw [ran] at first
    exact ⟨_, first.trans rest⟩

/-- Looking at a character adds to the faults. -/
theorem meets_peek (c : ByteCursor) : ∃ faults, c.Meets faults c.peek.2 := by
  unfold peek
  split
  · exact ⟨[], .of_eq rfl rfl rfl⟩
  · obtain ⟨faults, met⟩ := meets_decode c
    exact ⟨_, met.trans (.of_eq rfl rfl rfl)⟩

/-- Reading a character adds to the faults. -/
theorem meets_read (c : ByteCursor) : ∃ faults, c.Meets faults c.read.2 := by
  unfold read
  cases c.peeked with
  | some char => exact ⟨[], .of_eq rfl rfl rfl⟩
  | none =>
    obtain ⟨faults, met⟩ := meets_decode c
    rcases ran : c.decode with ⟨_ | char, after⟩
    · rw [ran] at met
      exact ⟨faults, met⟩
    · rw [ran] at met
      exact ⟨_, met.trans (.of_eq rfl rfl rfl)⟩

/-- A return to a mark adds to the faults. -/
theorem meets_restore (c : ByteCursor) (point : Point) : ∃ faults, c.Meets faults (c.restore point) := by
  unfold restore seekTo
  split
  · exact ⟨[], .of_eq rfl rfl rfl⟩
  · split
    · exact ⟨[], .of_eq rfl rfl rfl⟩
    · next fault reader _ =>
      exact ⟨_, ((meets_withReader c reader).fail fault).trans (.of_eq rfl rfl rfl)⟩

/-- Asking for the rest adds to the faults. -/
theorem meets_remaining (c : ByteCursor) : ∃ faults, c.Meets faults c.remaining.2 := by
  obtain ⟨faults, scan⟩ := meets_decodeAll c []
  obtain ⟨more, back⟩ := meets_restore (c.decodeAll []).2 c.mark
  exact ⟨_, scan.trans back⟩

/-- Asking for the newlines adds to the faults. -/
theorem meets_sourceMap (c : ByteCursor) : ∃ faults, c.Meets faults c.sourceMap.2 := by
  obtain ⟨faults, away⟩ := meets_restore c ⟨0, 0⟩
  obtain ⟨more, scan⟩ := meets_decodeAll (c.restore ⟨0, 0⟩) []
  obtain ⟨last, back⟩ := meets_restore ((c.restore ⟨0, 0⟩).decodeAll []).2 c.mark
  exact ⟨_, (away.trans scan).trans back⟩

/-- A property that survives every fault survives everything that a parser can do. -/
theorem keeps_of_meets {P : ByteCursor → Prop}
    (h : ∀ {c d : ByteCursor} {faults : List Fault}, c.Meets faults d → P c → P d) :
    Cursor.Keeps ByteCursor P where
  peek c hc := (meets_peek c).elim fun _ met => h met hc
  read c hc := (meets_read c).elim fun _ met => h met hc
  mark _ hc := hc
  restore c point hc := (meets_restore c point).elim fun _ met => h met hc
  release _ _ hc := hc

/-- A cursor that has met a fault finds nothing from then on. -/
theorem Meets.failed_of_failed {faults : List Fault} (met : c.Meets faults d) (h : c.failed = true) :
    d.failed = true := by
  rw [met.failed, h, Bool.true_or]

/-- The cursor keeps the first fault it has met, and has failed exactly if it has met one. -/
structure KeepsFirst (c : ByteCursor) : Prop where
  fault : c.fault = c.trail.getLast?
  failed : c.failed = !c.trail.isEmpty

/-- The first fault stays the one that is kept when others are met. -/
theorem Meets.keepsFirst {faults : List Fault} (met : c.Meets faults d) (h : c.KeepsFirst) :
    d.KeepsFirst where
  fault := by rw [met.fault, met.trail, h.fault, List.getLast?_append]
  failed := by
    rw [met.failed, met.trail, h.failed]
    cases faults <;> cases c.trail <;> rfl

/-- A new cursor has met no fault. -/
theorem keepsFirst_ofSource (source : Bytes.Source) (capacity : Nat) :
    (ofSource source capacity).KeepsFirst := ⟨rfl, rfl⟩

/-- The fault that is kept is the first of those met. -/
theorem KeepsFirst.head?_faults (h : c.KeepsFirst) : c.faults.head? = c.fault := by
  rw [faults, List.head?_reverse, h.fault]

end Parsing.ByteCursor
