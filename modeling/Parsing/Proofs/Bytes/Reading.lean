import Parsing.Bytes.Reader

/-!
# What a buffered reader hands out

A reader that stands at an offset hands out the byte of the source at that offset, however the source
cuts its bytes into pieces, however often reads are interrupted, whatever the buffer holds, and
whatever moves have been made before. The offset counts from where the source stood in the beginning.
Instead a read of the source may fail because it is the turn of a fault, which can be anywhere.

Sources that deliver no bytes at all in a read, although there are some, are excluded: for a reader
such a source is at its end.
-/

namespace Parsing.Bytes

namespace Source

/-- The bytes that reads of a source can deliver, wherever it stands. -/
def available (s : Source) : List UInt8 :=
  match s.breakdown with
  | none => s.bytes.toList
  | some breakdown => s.bytes.toList.take breakdown.place

/-- The bytes that reads of a source can deliver from where it stands. -/
def readable (s : Source) : List UInt8 := s.available.drop s.position

/-- The fault that stands behind the readable bytes, none at a real end. -/
def behind (s : Source) : Option Fault :=
  match s.breakdown with
  | none => none
  | some breakdown =>
    if breakdown.place ≤ max s.bytes.size s.position then some breakdown.fault else none

/-- Some read can fail with this fault wherever the source stands then. -/
def FailsReading (s : Source) (fault : Fault) : Prop := ∃ count, s.readFault count = some fault

/-- No moves fail, and no reads before the place from which on they all do, if there is one. -/
structure Steady (s : Source) : Prop where
  reads : ∀ count, s.readFault count = none
  moves : ∀ count, s.moveFault count = none

/-- The reads of a steady source do not fail wherever it stands. -/
theorem Steady.not_failsReading {s : Source} (h : s.Steady) (fault : Fault) : ¬s.FailsReading fault := by
  rintro ⟨count, turn⟩
  cases (h.reads count).symm.trans turn

/-- Sources that hold the same bytes and fail at the same places and in the same turns. Where they stand,
what has been read and when reads are interrupted may differ. -/
structure SamePlan (s origin : Source) : Prop where
  bytes : s.bytes = origin.bytes
  chunk : s.chunk = origin.chunk
  breakdown : s.breakdown = origin.breakdown
  readFault : s.readFault = origin.readFault
  moveFault : s.moveFault = origin.moveFault

/-- A source goes wrong like itself. -/
theorem SamePlan.refl (s : Source) : s.SamePlan s := ⟨rfl, rfl, rfl, rfl, rfl⟩

/-- Sources that go wrong like the same one go wrong alike. -/
theorem SamePlan.trans {s t origin : Source} (h : s.SamePlan t) (more : t.SamePlan origin) :
    s.SamePlan origin :=
  ⟨h.bytes.trans more.bytes, h.chunk.trans more.chunk, h.breakdown.trans more.breakdown,
    h.readFault.trans more.readFault, h.moveFault.trans more.moveFault⟩

/-- Sources with the same plan have the same faults in turn. -/
theorem SamePlan.failsReading {s origin : Source} (h : s.SamePlan origin) {fault : Fault}
    (failing : s.FailsReading fault) : origin.FailsReading fault := by
  rwa [FailsReading, ← h.readFault]

/-- Sources with the same plan have the same bytes to deliver. -/
theorem SamePlan.available_eq {s origin : Source} (h : s.SamePlan origin) :
    s.available = origin.available := by
  simp only [available, h.bytes, h.breakdown]

/-- No more bytes are available than the source holds. -/
theorem length_available_le (s : Source) : s.available.length ≤ s.bytes.size := by
  unfold available
  split
  · exact Nat.le_refl _
  · rw [List.length_take]
    exact Nat.min_le_right _ _

/-- A source that stands inside the readable bytes of another reads what is left of them, and meets
the same fault behind them. -/
theorem SamePlan.readable_behind {s origin : Source} (h : s.SamePlan origin) {offset : Nat}
    (place : s.position = origin.position + offset) (inside : offset ≤ origin.readable.length) :
    s.readable = origin.readable.drop offset ∧ s.behind = origin.behind := by
  have hsize := origin.length_available_le
  rw [readable, List.length_drop] at inside
  constructor
  · rw [readable, readable, h.available_eq, place, List.drop_drop]
  · have hmax : max origin.bytes.size (origin.position + offset) =
        max origin.bytes.size origin.position := by omega
    simp only [behind, h.breakdown, h.bytes, place, hmax]

/-- A read that fails delivers nothing. -/
theorem transfer_of_fault {s : Source} {fault : Fault} (capacity : Nat) (h : s.fault? = some fault) :
    s.transfer capacity = (.error fault, s.afterRead) := by
  rw [transfer, h]

/-- A read that does not fail delivers the next bytes. -/
theorem transfer_of_no_fault {s : Source} (capacity : Nat) (h : s.fault? = none) :
    s.transfer capacity = (.ok (s.deliver capacity).1, (s.deliver capacity).2) := by
  rw [transfer, h]

/-- Where bytes are readable a read fails only if it is the turn of a fault. -/
theorem fault?_of_readable {s : Source} (hbytes : s.readable ≠ []) : s.fault? = s.readFault s.reads := by
  have hlength : 0 < s.readable.length := List.length_pos_iff.2 hbytes
  rw [fault?]
  cases hb : s.breakdown with
  | none => rfl
  | some breakdown =>
    have hplace : s.position < breakdown.place := by
      simp only [readable, available, hb, List.length_drop, List.length_take] at hlength
      omega
    exact if_neg (Nat.not_le.2 hplace)

/-- Where bytes are readable, reads that do not fail deliver some of them, the next ones. -/
theorem deliver_of_readable {s : Source} {capacity : Nat} (room : 0 < capacity)
    (hchunk : s.chunk ≠ some 0) (hbytes : s.readable ≠ []) :
    0 < s.deliverable capacity ∧
      (s.deliver capacity).1.toList = s.readable.take (s.deliverable capacity) := by
  have hlimit : 0 < min capacity (s.chunk.getD capacity) := by
    cases hc : s.chunk with
    | none => simpa using room
    | some count =>
      have : count ≠ 0 := fun h => hchunk (by rw [hc, h])
      simp only [Option.getD_some]
      omega
  have hlength : 0 < s.readable.length := List.length_pos_iff.2 hbytes
  cases hb : s.breakdown with
  | none =>
    simp only [deliver, hb, deliverable, readable, available, Array.toList_extract,
      List.extract_eq_take_drop]
    refine ⟨hlimit, ?_⟩
    congr 1
    omega
  | some breakdown =>
    have hplace : s.position < breakdown.place := by
      simp only [readable, available, hb, List.length_drop, List.length_take] at hlength
      omega
    simp only [deliver, hb, deliverable, readable, available, Array.toList_extract,
      List.extract_eq_take_drop]
    refine ⟨by omega, ?_⟩
    rw [List.drop_take, List.take_take]
    congr 1
    omega

/-- A read into room for some bytes delivers the next readable ones, at least one of them, unless it is the
turn of a fault. -/
theorem transfer_of_readable {s : Source} {capacity : Nat} (room : 0 < capacity)
    (hchunk : s.chunk ≠ some 0) (hbytes : s.readable ≠ []) :
    (∃ fault after, s.transfer capacity = (.error fault, after) ∧ s.FailsReading fault) ∨
    ∃ delivered after, s.transfer capacity = (.ok delivered, after) ∧ 0 < delivered.size ∧
      delivered.toList = s.readable.take delivered.size ∧ after.SamePlan s ∧
      after.position = s.position + delivered.size := by
  have hlength : 0 < s.readable.length := List.length_pos_iff.2 hbytes
  have hfault := fault?_of_readable hbytes
  cases hturn : s.readFault s.reads with
  | some fault =>
    exact .inl ⟨fault, _, transfer_of_fault capacity (hfault.trans hturn), s.reads, hturn⟩
  | none =>
    obtain ⟨hpositive, hlist⟩ := deliver_of_readable room hchunk hbytes
    have hlengths := congrArg List.length hlist
    rw [Array.length_toList, List.length_take] at hlengths
    refine .inr ⟨_, _, transfer_of_no_fault capacity (hfault.trans hturn), ?_, ?_,
      ⟨rfl, rfl, rfl, rfl, rfl⟩, rfl⟩
    · omega
    · rw [hlist, hlengths, List.take_eq_take_iff]
      omega

/-- Where no bytes are left a read meets the fault that stands there. If none does, it fails only if it is the
turn of a fault. -/
theorem fault?_of_not_readable {s : Source} (hbytes : s.readable = []) :
    s.fault? = s.behind ∨ s.fault? = s.readFault s.reads ∧ s.behind = none := by
  rw [fault?, behind]
  cases hb : s.breakdown with
  | none => exact .inr ⟨rfl, rfl⟩
  | some breakdown =>
    have hend : min breakdown.place s.bytes.size ≤ s.position := by
      simpa [readable, available, hb, List.drop_eq_nil_iff] using hbytes
    by_cases hplace : breakdown.place ≤ s.position
    · refine .inl ?_
      simp only [if_pos hplace]
      rw [if_pos (by omega)]
    · refine .inr ⟨if_neg hplace, ?_⟩
      simp only
      rw [if_neg (by omega)]

/-- Where no bytes are left and no fault stands, the source is at its end. -/
theorem size_le_position {s : Source} (hbytes : s.readable = []) (hbehind : s.behind = none) :
    s.bytes.size ≤ s.position := by
  rw [behind] at hbehind
  cases hb : s.breakdown with
  | none => simpa [readable, available, hb, List.drop_eq_nil_iff] using hbytes
  | some breakdown =>
    have hend : min breakdown.place s.bytes.size ≤ s.position := by
      simpa [readable, available, hb, List.drop_eq_nil_iff] using hbytes
    have hplace : ¬breakdown.place ≤ max s.bytes.size s.position := by simpa [hb] using hbehind
    omega

/-- Where a read would deliver nothing, it meets the fault that stands there, if one does. If none does, it
fails only if it is the turn of a fault. -/
theorem transfer_of_empty {s : Source} {capacity : Nat} {stop : Option Fault}
    (hfault : s.fault? = stop ∨ s.fault? = s.readFault s.reads ∧ stop = none)
    (hempty : stop = none → (s.deliver capacity).1 = #[]) :
    (∃ fault after, s.transfer capacity = (.error fault, after) ∧ s.FailsReading fault) ∨
    ∃ after, s.transfer capacity = (stop.elim (.ok #[]) .error, after) ∧ after.SamePlan s ∧
      after.position = s.position := by
  have delivers (hstop : stop = none) (h : s.fault? = none) :
      ∃ after, s.transfer capacity = (.ok #[], after) ∧ after.SamePlan s ∧ after.position = s.position := by
    have hposition : (s.deliver capacity).2.position = s.position + (s.deliver capacity).1.size := rfl
    rw [hempty hstop] at hposition
    refine ⟨(s.deliver capacity).2, ?_, ⟨rfl, rfl, rfl, rfl, rfl⟩, hposition⟩
    rw [transfer_of_no_fault capacity h, hempty hstop]
  rcases hfault with hfault | ⟨hfault, rfl⟩
  · refine .inr ?_
    cases stop with
    | none => exact delivers rfl hfault
    | some fault => exact ⟨_, transfer_of_fault capacity hfault, ⟨rfl, rfl, rfl, rfl, rfl⟩, rfl⟩
  · cases hturn : s.readFault s.reads with
    | some fault => exact .inl ⟨fault, _, transfer_of_fault capacity (hfault.trans hturn), s.reads, hturn⟩
    | none => exact .inr (delivers rfl (hfault.trans hturn))

/-- A read where no bytes are left delivers none, or fails if a fault stands there or it is the turn of one. -/
theorem transfer_of_not_readable {s : Source} (capacity : Nat) (hbytes : s.readable = []) :
    (∃ fault after, s.transfer capacity = (.error fault, after) ∧ s.FailsReading fault) ∨
    ∃ after, s.transfer capacity = (s.behind.elim (.ok #[]) .error, after) ∧ after.SamePlan s ∧
      after.position = s.position := by
  refine transfer_of_empty (fault?_of_not_readable hbytes) fun hbehind => ?_
  have hend := size_le_position hbytes hbehind
  apply Array.eq_empty_of_size_eq_zero
  rw [deliver, Array.size_extract]
  omega

end Source

namespace Reader

/-- Filling the buffer comes down to one read of the source; the interrupted ones before it change
nothing that matters. -/
theorem refillAfter_eq (r : Reader) (pending : Nat) : ∃ s : Source, s.SamePlan r.source ∧
    s.position = r.source.position ∧
    r.refillAfter pending = match s.transfer r.capacity with
      | (.ok delivered, after) => (.ok (), { r with source := after, buffer := delivered, consumed := 0 })
      | (.error fault, after) => (.error fault, r.emptied after) := by
  induction pending generalizing r with
  | zero => exact ⟨r.source, .refl _, rfl, rfl⟩
  | succ pending ih =>
    obtain ⟨s, plan, place, heq⟩ := ih (r.emptied { r.source with pending })
    exact ⟨s, plan.trans ⟨rfl, rfl, rfl, rfl, rfl⟩, place, heq⟩

/-- A reader whose next byte is the one at an offset. The buffer is a piece of the source that ends
where the source stands, so moves inside the buffer go to the right bytes as well. -/
structure StandsAt (origin : Source) (offset : Nat) (r : Reader) : Prop where
  plan : r.source.SamePlan origin
  room : 0 < r.capacity
  inside : offset ≤ origin.readable.length
  consumed_le : r.consumed ≤ r.buffer.size
  place : r.source.position + r.consumed = origin.position + offset + r.buffer.size
  size_le : r.buffer.size ≤ r.source.position
  content : r.buffer.toList =
    (origin.available.drop (r.source.position - r.buffer.size)).take r.buffer.size

/-- A reader stands at the start of what its source had to read in the beginning. -/
theorem standsAt_ofSource (origin : Source) (capacity : Nat) :
    StandsAt origin 0 (ofSource origin capacity) where
  plan := .refl _
  room := by simp only [ofSource]; omega
  inside := Nat.zero_le _
  consumed_le := Nat.le_refl _
  place := rfl
  size_le := Nat.zero_le _
  content := by simp [ofSource]

variable {origin : Source} {offset : Nat} {r : Reader}

/-- With an empty buffer only the place of the source matters. -/
theorem StandsAt.of_empty (h : r.StandsAt origin offset) {source : Source}
    (plan : source.SamePlan r.source) {target : Nat} (inside : target ≤ origin.readable.length)
    (place : source.position = origin.position + target) : StandsAt origin target (r.emptied source) where
  plan := plan.trans h.plan
  room := h.room
  inside := inside
  consumed_le := Nat.le_refl _
  place := by simpa [emptied] using place
  size_le := Nat.zero_le _
  content := by simp [emptied]

/-- What the buffer still holds is the beginning of what is left to read. -/
theorem StandsAt.buffered (h : r.StandsAt origin offset) :
    r.buffer.toList.drop r.consumed =
      (origin.readable.drop offset).take (r.buffer.size - r.consumed) := by
  have hplace := h.place
  have hconsumed := h.consumed_le
  have hsize := h.size_le
  rw [h.content, List.drop_take, List.drop_drop, Source.readable, List.drop_drop]
  congr 2
  omega

/-- A byte left in the buffer is handed out without touching the source. -/
theorem StandsAt.takeBuffered_cons (h : r.StandsAt origin offset) {byte : UInt8} {rest : List UInt8}
    (hbytes : origin.readable.drop offset = byte :: rest) (left : r.consumed < r.buffer.size) :
    ∃ after, r.takeBuffered = (some byte, after) ∧ after.StandsAt origin (offset + 1) := by
  have hbyte : r.buffer[r.consumed]? = some byte := by
    have hhead := congrArg List.head? h.buffered
    rw [hbytes, List.head?_drop, List.head?_take, if_neg (by omega), Array.getElem?_toList] at hhead
    exact hhead
  have hlength := congrArg List.length hbytes
  rw [List.length_drop, List.length_cons] at hlength
  have hplace := h.place
  refine ⟨{ r with consumed := r.consumed + 1 }, by simp only [takeBuffered, hbyte], h.plan, h.room,
    by omega, left, ?_, h.size_le, h.content⟩
  simp only
  omega

/-- A buffer that is used up hands out nothing. -/
theorem takeBuffered_of_usedUp (used : r.buffer.size ≤ r.consumed) : r.takeBuffered = (none, r) := by
  simp only [takeBuffered, Array.getElem?_eq_none used]

/-- Where the buffer is used up, what the next read of the source fails with is met. -/
theorem next_of_fault {r : Reader} (used : r.buffer.size ≤ r.consumed) {fault : Fault} {after : Source}
    (h : r.refill = (.error fault, r.emptied after)) : r.next = (.error fault, r.emptied after) := by
  simp only [next, takeBuffered_of_usedUp used, h]

/-- While bytes are left, the next one is handed out, unless it is the turn of a fault. -/
theorem StandsAt.next_cons (h : r.StandsAt origin offset) (hchunk : origin.chunk ≠ some 0)
    {byte : UInt8} {rest : List UInt8} (hbytes : origin.readable.drop offset = byte :: rest) :
    (∃ fault after, r.next = (.error fault, after) ∧ origin.FailsReading fault) ∨
    ∃ after, r.next = (.ok (some byte), after) ∧ after.StandsAt origin (offset + 1) := by
  by_cases left : r.consumed < r.buffer.size
  · obtain ⟨after, taken, stands⟩ := h.takeBuffered_cons hbytes left
    exact .inr ⟨after, by simp only [next, taken], stands⟩
  · have hplace := h.place
    have hconsumed := h.consumed_le
    obtain ⟨s, plan, place, hrefill⟩ := refillAfter_eq r r.source.pending
    have hposition : s.position = origin.position + offset := by omega
    have hreadable : s.readable = byte :: rest :=
      ((plan.trans h.plan).readable_behind hposition h.inside).1.trans hbytes
    rcases Source.transfer_of_readable h.room (by rw [plan.chunk, h.plan.chunk]; exact hchunk)
        (by rw [hreadable]; exact List.cons_ne_nil _ _) with
      ⟨fault, after, htransfer, failing⟩ |
      ⟨delivered, after, htransfer, hpositive, hlist, hplan, hafter⟩
    · rw [htransfer] at hrefill
      exact .inl ⟨fault, _, next_of_fault (Nat.not_lt.1 left) hrefill, (plan.trans h.plan).failsReading failing⟩
    · rw [htransfer] at hrefill
      have filled : StandsAt origin offset
          { r with source := after, buffer := delivered, consumed := 0 } :=
        { plan := hplan.trans (plan.trans h.plan)
          room := h.room
          inside := h.inside
          consumed_le := Nat.zero_le _
          place := by simp only; omega
          size_le := by simp only; omega
          content := by
            have hstart : after.position - delivered.size = s.position := by omega
            simp only
            rw [hlist, hstart, Source.readable, (plan.trans h.plan).available_eq] }
      obtain ⟨final, taken, stands⟩ := filled.takeBuffered_cons hbytes hpositive
      refine .inr ⟨final, ?_, stands⟩
      simp only [next, takeBuffered_of_usedUp (Nat.not_lt.1 left), refill, hrefill, taken]

/-- Where no bytes are left, none is handed out, or the fault behind them is met, unless it is the turn of
another. -/
theorem StandsAt.next_nil (h : r.StandsAt origin offset) (hbytes : origin.readable.drop offset = []) :
    (∃ fault after, r.next = (.error fault, after) ∧ origin.FailsReading fault) ∨
    ∃ after, r.next = (origin.behind.elim (.ok none) .error, after) ∧ after.StandsAt origin offset := by
  have hplace := h.place
  have hconsumed := h.consumed_le
  have used : r.buffer.size ≤ r.consumed := by
    have hlengths := congrArg List.length h.buffered
    rw [hbytes] at hlengths
    simp only [List.length_drop, Array.length_toList, List.take_nil, List.length_nil] at hlengths
    omega
  obtain ⟨s, plan, place, hrefill⟩ := refillAfter_eq r r.source.pending
  have hposition : s.position = origin.position + offset := by omega
  obtain ⟨hreadable, hbehind⟩ := (plan.trans h.plan).readable_behind hposition h.inside
  rcases Source.transfer_of_not_readable r.capacity (hreadable.trans hbytes) with
    ⟨fault, after, htransfer, failing⟩ | ⟨after, htransfer, hplan, hafter⟩
  · rw [htransfer] at hrefill
    exact .inl ⟨fault, _, next_of_fault used hrefill, (plan.trans h.plan).failsReading failing⟩
  · have stands : StandsAt origin offset (r.emptied after) :=
      h.of_empty (hplan.trans plan) h.inside (hafter.trans hposition)
    refine .inr ⟨r.emptied after, ?_, stands⟩
    rw [htransfer, hbehind] at hrefill
    cases hfault : origin.behind with
    | none =>
      rw [hfault] at hrefill
      simp only [next, takeBuffered_of_usedUp used, refill, hrefill, Option.elim_none]
      rfl
    | some fault =>
      rw [hfault] at hrefill
      exact next_of_fault used hrefill

/-- A move to an offset of the readable bytes ends there, unless the source fails to move. -/
theorem StandsAt.moveBy (h : r.StandsAt origin offset) {target : Nat}
    (inside : target ≤ origin.readable.length) :
    (∃ after, r.moveBy ((target : Int) - offset) = (.ok (), after) ∧ after.StandsAt origin target) ∨
    (∃ fault after count, r.moveBy ((target : Int) - offset) = (.error fault, after) ∧
      origin.moveFault count = some fault) := by
  have hplace := h.place
  have hconsumed := h.consumed_le
  by_cases buffered : 0 ≤ (r.consumed : Int) + ((target : Int) - offset) ∧
      (r.consumed : Int) + ((target : Int) - offset) ≤ r.buffer.size
  · refine .inl ⟨{ r with consumed := ((r.consumed : Int) + ((target : Int) - offset)).toNat },
      by simp only [Reader.moveBy, if_pos buffered], h.plan, h.room, inside, ?_, ?_, h.size_le, h.content⟩
    · simp only
      omega
    · simp only
      omega
  · simp only [Reader.moveBy, if_neg buffered, Source.moveBy]
    cases hfault : r.source.moveFault r.source.moves with
    | some fault =>
      exact .inr ⟨fault, _, r.source.moves, rfl, by rw [← h.plan.moveFault, hfault]⟩
    | none =>
      rw [if_neg (by omega)]
      have plan (position : Nat) :
          { r.source with moves := r.source.moves + 1, position }.SamePlan r.source :=
        ⟨rfl, rfl, rfl, rfl, rfl⟩
      exact .inl ⟨_, rfl, h.of_empty (plan _) inside (by simp only; omega)⟩

end Reader

end Parsing.Bytes
