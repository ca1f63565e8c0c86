import Parsing.Fault

/-!
# Byte sources

A source delivers bytes in pieces and can be moved. It may be troublesome: a read may be interrupted
and has to be repeated, reads may fail from some place on, any read may fail once and the next one
succeed again, also where bytes have been read before, and moves may fail. What happens when is part of
the source, so that reading is a function.
-/

namespace Parsing.Bytes

/-- From some place on, every read fails. -/
structure Breakdown where
  place : Nat
  fault : Fault
  deriving Repr, DecidableEq

/-- Bytes with a position and a plan of everything that goes wrong. -/
structure Source where
  bytes : Array UInt8
  position : Nat
  /-- The most bytes that one read delivers, if there is such a limit. -/
  chunk : Option Nat
  /-- Where reads start to fail, if they do. -/
  breakdown : Option Breakdown
  /-- The fault of a read, if it fails wherever the source stands, by the number of earlier reads. -/
  readFault : Nat → Option Fault
  /-- How often a read is interrupted before it is carried out, by the number of earlier reads. -/
  interruptions : Nat → Nat
  /-- How many reads have been carried out. -/
  reads : Nat
  /-- How many interruptions are still to come before the next read is carried out. -/
  pending : Nat
  /-- The fault of a move, if it fails, by the number of earlier moves. -/
  moveFault : Nat → Option Fault
  /-- How many moves have been tried. -/
  moves : Nat

namespace Source

/-- A source over `bytes` in which nothing goes wrong. -/
def ofBytes (bytes : Array UInt8) : Source where
  bytes
  position := 0
  chunk := none
  breakdown := none
  readFault := fun _ => none
  interruptions := fun _ => 0
  reads := 0
  pending := 0
  moveFault := fun _ => none
  moves := 0

/-- The same source with a plan of interruptions. -/
def interruptedBy (s : Source) (interruptions : Nat → Nat) : Source :=
  { s with interruptions, pending := interruptions s.reads }

/-- How many bytes a read delivers into room for `capacity`. -/
def deliverable (s : Source) (capacity : Nat) : Nat :=
  let limit := min capacity (s.chunk.getD capacity)
  match s.breakdown with
  | some breakdown => min limit (breakdown.place - s.position)
  | none => limit

/-- The source after a read that was carried out. -/
def afterRead (s : Source) : Source :=
  { s with reads := s.reads + 1, pending := s.interruptions (s.reads + 1) }

/-- The fault of the next read, if it fails: reads have started to fail where the source stands, or it is
the turn of a fault. -/
def fault? (s : Source) : Option Fault :=
  match s.breakdown with
  | some breakdown =>
    if breakdown.place ≤ s.position then some breakdown.fault else s.readFault s.reads
  | none => s.readFault s.reads

/-- Hand over the next bytes, as many as there is room for at most. -/
def deliver (s : Source) (capacity : Nat) : Array UInt8 × Source :=
  let delivered := s.bytes.extract s.position (s.position + s.deliverable capacity)
  (delivered, { s.afterRead with position := s.position + delivered.size })

/-- Carry out a read into room for `capacity` bytes. -/
def transfer (s : Source) (capacity : Nat) : Except Fault (Array UInt8) × Source :=
  match s.fault? with
  | some fault => (.error fault, s.afterRead)
  | none =>
    let (delivered, after) := s.deliver capacity
    (.ok delivered, after)

/-- How many bytes have not been delivered yet. -/
def unread (s : Source) : Nat := s.bytes.size - s.position

/-- What is delivered is no longer unread. -/
theorem unread_transfer {s after : Source} {capacity : Nat} {delivered : Array UInt8}
    (h : s.transfer capacity = (.ok delivered, after)) :
    delivered.size + after.unread = s.unread := by
  unfold transfer at h
  split at h
  · simp at h
  · simp only [deliver, Prod.mk.injEq, Except.ok.injEq] at h
    obtain ⟨rfl, rfl⟩ := h
    simp only [unread, afterRead, Array.size_extract]
    omega

/-- Move by `distance` bytes; a source that cannot move stays where it is. -/
def moveBy (s : Source) (distance : Int) : Except Fault Unit × Source :=
  let after := { s with moves := s.moves + 1 }
  match s.moveFault s.moves with
  | some fault => (.error fault, after)
  | none =>
    if (s.position : Int) + distance < 0 then (.error .seekBeforeStart, after)
    else (.ok (), { after with position := ((s.position : Int) + distance).toNat })

end Source

end Parsing.Bytes
