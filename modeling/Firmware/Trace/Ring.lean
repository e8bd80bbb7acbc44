import Firmware.Text.Numeral

/-!
# The trace ring

The last events of a program in a fixed number of slots. An event that repeats the one before it, in
its place in the source and in its payload, is counted and takes no slot of its own. The ring is
memory that a debugger reads: its index may have been overwritten with anything, and recording
starts over at the first slot if it is out of range.

* `length_record`: recording keeps the number of slots.
* `record_isOk`: recording fails only on a ring without slots.
* `last_record`: after recording the index is in range.
-/

namespace Firmware.Trace

/-- An event: where it was recorded, how often in a row, and how often its slot had been reused. -/
structure Entry (α : Type) where
  line : UInt16
  generation : UInt16
  count : UInt32
  payload : α

/-- Slots for events, and the index of the slot written last. -/
structure Ring (α : Type) where
  last : Option UInt64
  slots : List (Entry α)

/-- An access past the end of the slots. -/
structure OutOfBounds where
  length : Nat
  index : Nat
deriving DecidableEq

/-- The text of such an access. -/
def OutOfBounds.message (e : OutOfBounds) : String :=
  "index out of bounds: the len is " ++ Text.Numeral.decimalString e.length ++
    " but the index is " ++ Text.Numeral.decimalString e.index

namespace Ring

variable {α : Type}

/-- A ring of unused slots. -/
def fresh (size : Nat) (payload : α) : Ring α := ⟨none, List.replicate size ⟨0, 0, 0, payload⟩⟩

/-- The index that stands for the slot written last; before the first event it is the largest there
is, which no ring has. -/
def lastIndex (ring : Ring α) : UInt64 := ring.last.getD (UInt64.ofNat (UInt64.size - 1))

/-- The slot for the next event: the one after the last, or the first if there is none after it. -/
def nextSlot (ring : Ring α) : Nat :=
  let after := (ring.lastIndex + 1).toNat
  if ring.slots.length ≤ after then 0 else after

/-- The entry written last with one more event counted, if the event repeats it and the count does
not run over. -/
def repeated? [BEq α] (ring : Ring α) (line : UInt16) (payload : α) : Option (Entry α) :=
  match ring.slots[ring.lastIndex.toNat]? with
  | some entry =>
    if entry.line == line && entry.payload == payload && entry.count.toNat + 1 < UInt32.size then
      some { entry with count := entry.count + 1 }
    else none
  | none => none

/-- Records an event. -/
def record [BEq α] (ring : Ring α) (line : UInt16) (payload : α) : Except OutOfBounds (Ring α) :=
  match ring.repeated? line payload with
  | some entry => .ok { ring with slots := ring.slots.set ring.lastIndex.toNat entry }
  | none =>
    match ring.slots[ring.nextSlot]? with
    | some old =>
      .ok {
        last := some (UInt64.ofNat ring.nextSlot)
        slots := ring.slots.set ring.nextSlot ⟨line, old.generation + 1, 1, payload⟩ }
    | none => .error ⟨ring.slots.length, ring.nextSlot⟩

/-- Records an event several times. -/
def recordTimes [BEq α] (line : UInt16) (payload : α) : Nat → Ring α → Except OutOfBounds (Ring α)
  | 0, ring => .ok ring
  | times + 1, ring => (ring.record line payload).bind (recordTimes line payload times)

/-- The event recorded last. -/
def latest (ring : Ring α) : Option (Entry α) := ring.last.bind (ring.slots[·.toNat]?)

/-- The slot that is visited as number `i`, counted from the one after the last. The sum of indices
wraps, and the end of the slots is passed at most once. -/
def visited (ring : Ring α) (i : Nat) : Nat :=
  let index := ((ring.last.map (· + 1)).getD 0 + UInt64.ofNat i).toNat
  if ring.slots.length ≤ index then index - ring.slots.length else index

/-- The recorded events, the oldest first. -/
def entries (ring : Ring α) : List (Entry α) :=
  (List.range ring.slots.length).filterMap fun i =>
    (ring.slots[ring.visited i]?).filter (·.count ≠ 0)

/-- The ring with one slot overwritten. -/
def overwrite (ring : Ring α) (slot : Nat) (entry : Entry α) : Ring α :=
  { ring with slots := ring.slots.set slot entry }

/-- The next event always has a slot. -/
theorem nextSlot_lt (ring : Ring α) (h : ring.slots ≠ []) : ring.nextSlot < ring.slots.length := by
  have hpos := List.length_pos_iff.2 h
  simp only [nextSlot]
  split <;> omega

theorem record_isOk [BEq α] (ring : Ring α) (line : UInt16) (payload : α) (h : ring.slots ≠ []) :
    (ring.record line payload).isOk := by
  rw [record]
  cases ring.repeated? line payload with
  | some entry => rfl
  | none =>
    rw [List.getElem?_eq_getElem (ring.nextSlot_lt h)]
    rfl

theorem length_record [BEq α] {ring next : Ring α} {line : UInt16} {payload : α}
    (h : ring.record line payload = .ok next) : next.slots.length = ring.slots.length := by
  rw [record] at h
  split at h
  · cases h
    simp
  · split at h
    · cases h
      simp
    · cases h

/-- Recovery: after recording the index is in range, whatever it was before. -/
theorem last_record [BEq α] {ring next : Ring α} {line : UInt16} {payload : α}
    (hsize : ring.slots.length < UInt64.size) (h : ring.record line payload = .ok next) :
    next.lastIndex.toNat < next.slots.length := by
  rw [length_record h]
  rw [record] at h
  split at h
  -- an event that was counted: the slot written last exists
  next entry hrepeated =>
    cases h
    rw [repeated?] at hrepeated
    split at hrepeated
    next old hold => exact (List.getElem?_eq_some_iff.1 hold).1
    next => cases hrepeated
  -- an event in a slot of its own
  next =>
    split at h
    next old hold =>
      cases h
      have hlt := (List.getElem?_eq_some_iff.1 hold).1
      have htoNat : (UInt64.ofNat ring.nextSlot).toNat = ring.nextSlot :=
        UInt64.toNat_ofNat_of_lt (Nat.lt_trans hlt hsize)
      show (UInt64.ofNat ring.nextSlot).toNat < _
      rwa [htoNat]
    next => cases h

end Ring

end Firmware.Trace
