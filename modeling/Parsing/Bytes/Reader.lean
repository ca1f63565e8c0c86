import Parsing.Bytes.Source

/-!
# Buffered readers

A reader hands out the bytes of a source one at a time. Its buffer holds what the last read of the
source brought, and is filled again only when a byte is wanted and the buffer is used up. A refill
that brings nothing leaves the buffer empty. Moves that stay inside the buffer, both ends included,
do not touch the source; other moves move the source and empty the buffer if that succeeds.
-/

namespace Parsing.Bytes

/-- A source behind a buffer. -/
structure Reader where
  source : Source
  buffer : Array UInt8
  /-- How many bytes of the buffer have been handed out. -/
  consumed : Nat
  capacity : Nat

namespace Reader

/-- A reader with an empty buffer; room for no bytes counts as room for one. -/
def ofSource (source : Source) (capacity : Nat) : Reader := ⟨source, #[], 0, max capacity 1⟩

/-- A reader whose buffer is empty. -/
def emptied (r : Reader) (source : Source) : Reader := { r with source, buffer := #[], consumed := 0 }

/-- Fill the buffer with what the next read of the source brings, which is repeated when it is
interrupted, the given number of times. -/
def refillAfter (r : Reader) : Nat → Except Fault Unit × Reader
  | 0 =>
    match r.source.transfer r.capacity with
    | (.ok delivered, source) => (.ok (), { r with source, buffer := delivered, consumed := 0 })
    | (.error fault, source) => (.error fault, r.emptied source)
  | pending + 1 => (r.emptied { r.source with pending }).refillAfter pending

/-- Fill the buffer with what the next read of the source brings. -/
def refill (r : Reader) : Except Fault Unit × Reader := r.refillAfter r.source.pending

/-- The next byte of the buffer, which is handed out. -/
def takeBuffered (r : Reader) : Option UInt8 × Reader :=
  match r.buffer[r.consumed]? with
  | some byte => (some byte, { r with consumed := r.consumed + 1 })
  | none => (none, r)

/-- The next byte, `none` at the end of the source. -/
def next (r : Reader) : Except Fault (Option UInt8) × Reader :=
  match r.takeBuffered with
  | (some byte, r) => (.ok (some byte), r)
  | (none, r) =>
    match r.refill with
    | (.error fault, r) => (.error fault, r)
    | (.ok (), r) =>
      let (byte, r) := r.takeBuffered
      (.ok byte, r)

/-- How many bytes have not been handed out yet. -/
def unread (r : Reader) : Nat := r.buffer.size - r.consumed + r.source.unread

/-- A byte of the buffer is handed out once. -/
theorem unread_takeBuffered {r after : Reader} {byte : UInt8}
    (h : r.takeBuffered = (some byte, after)) : after.unread < r.unread := by
  unfold takeBuffered at h
  split at h
  · rename_i found
    simp only [Prod.mk.injEq, Option.some.injEq] at h
    obtain ⟨rfl, rfl⟩ := h
    obtain ⟨inside, -⟩ := Array.getElem?_eq_some_iff.1 found
    simp only [unread]
    omega
  · simp at h

/-- Filling the buffer moves bytes from the source to the buffer. -/
theorem unread_refillAfter {pending : Nat} {r after : Reader}
    (h : r.refillAfter pending = (.ok (), after)) : after.unread ≤ r.unread := by
  induction pending generalizing r with
  | zero =>
    simp only [refillAfter] at h
    split at h
    · rename_i transferred
      simp only [Prod.mk.injEq, true_and] at h
      subst h
      have := Source.unread_transfer transferred
      simp only [unread]
      omega
    · simp at h
  | succ pending ih =>
    have := ih h
    simp only [unread, emptied, Source.unread, List.size_toArray, List.length_nil] at this ⊢
    omega

/-- Every byte handed out is unread before and not after. -/
theorem unread_next {r after : Reader} {byte : UInt8} (h : r.next = (.ok (some byte), after)) :
    after.unread < r.unread := by
  unfold next at h
  split at h
  · simp only [Prod.mk.injEq, Except.ok.injEq, Option.some.injEq] at h
    obtain ⟨rfl, rfl⟩ := h
    exact unread_takeBuffered ‹_›
  · rename_i before taken
    have same : before = r := by
      unfold takeBuffered at taken
      split at taken <;> simp_all
    subst same
    split at h
    · simp at h
    · rename_i filled refilled
      unfold refill at refilled
      have := unread_refillAfter refilled
      simp only [Prod.mk.injEq, Except.ok.injEq] at h
      have := @unread_takeBuffered filled after byte (Prod.ext h.1 h.2)
      omega

/-- Move by `distance` bytes from the next byte to be handed out. -/
def moveBy (r : Reader) (distance : Int) : Except Fault Unit × Reader :=
  let place := (r.consumed : Int) + distance
  if 0 ≤ place ∧ place ≤ r.buffer.size then (.ok (), { r with consumed := place.toNat })
  else
    let ahead := (r.buffer.size : Int) - r.consumed
    match r.source.moveBy (distance - ahead) with
    | (.error fault, source) => (.error fault, { r with source })
    | (.ok (), source) => (.ok (), { r with source, buffer := #[], consumed := 0 })

end Reader

end Parsing.Bytes
