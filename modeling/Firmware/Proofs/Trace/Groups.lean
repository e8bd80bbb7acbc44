import Mathlib.Algebra.Ring.Nat
import Firmware.Trace.Ring

/-!
# Groups of equal events

The log of a program without a bound on its length: events in a row that repeat one another are a
group with a count, and a group that can count no further is followed by another one.

* `sum_count_groups`: the groups of a log together count every event.
* `recordTimes_eq_recordAll`: an event that is recorded several times is recorded that many times in
  a row.
-/

namespace Firmware.Trace

variable {α : Type}

/-- What is recorded: a place in the source and a payload. -/
structure Event (α : Type) where
  line : UInt16
  payload : α

/-- Events in a row that are counted together. The payload is that of the first. -/
structure Group (α : Type) where
  line : UInt16
  payload : α
  count : Nat
  count_pos : 0 < count
  count_le : count ≤ 2 ^ 32 - 1

namespace Group

/-- An event that starts a group. -/
def first (event : Event α) : Group α := ⟨event.line, event.payload, 1, by omega, by omega⟩

/-- The group with one event more, if the event comes from the group's line, the group's payload
equals the event's and the count does not run over. -/
def extend? [BEq α] (group : Group α) (event : Event α) : Option (Group α) :=
  if h : (group.line == event.line && group.payload == event.payload) ∧
      group.count < 2 ^ 32 - 1 then
    some { group with
      count := group.count + 1
      count_pos := Nat.succ_pos _
      count_le := h.2 }
  else none

/-- The group as a slot holds it. -/
def entry (group : Group α) (generation : UInt16) : Entry α :=
  ⟨group.line, generation, UInt32.ofNat group.count, group.payload⟩

/-- The groups of a log after one event more. -/
def log [BEq α] (groups : List (Group α)) (event : Event α) : List (Group α) :=
  match groups.getLast?.bind (·.extend? event) with
  | some group => groups.dropLast ++ [group]
  | none => groups ++ [first event]

@[simp] theorem entry_generation (group : Group α) (generation : UInt16) :
    (group.entry generation).generation = generation := rfl

theorem toNat_count_entry (group : Group α) (generation : UInt16) :
    (group.entry generation).count.toNat = group.count := by
  have hle := group.count_le
  exact UInt32.toNat_ofNat_of_lt' (by rw [UInt32.size]; omega)

/-- A slot that holds a group is in use. -/
theorem count_entry_ne_zero (group : Group α) (generation : UInt16) :
    (group.entry generation).count ≠ 0 := by
  intro hzero
  have hcount := group.toNat_count_entry generation
  have hpos := group.count_pos
  rw [hzero, UInt32.toNat_zero] at hcount
  omega

theorem count_extend? [BEq α] {group longer : Group α} {event : Event α}
    (h : group.extend? event = some longer) : longer.count = group.count + 1 := by
  rw [extend?] at h
  split at h
  · cases h
    rfl
  · cases h

theorem log_concat_of_some [BEq α] {front : List (Group α)} {group longer : Group α}
    {event : Event α} (h : group.extend? event = some longer) :
    log (front ++ [group]) event = front ++ [longer] := by
  rw [log, List.getLast?_concat, Option.bind_some, h, List.dropLast_concat]

theorem log_of_none [BEq α] {groups : List (Group α)} {event : Event α}
    (h : groups.getLast?.bind (·.extend? event) = none) :
    log groups event = groups ++ [first event] := by
  rw [log, h]

/-- One event more is counted once. -/
theorem sum_count_log [BEq α] (groups : List (Group α)) (event : Event α) :
    ((log groups event).map (·.count)).sum = (groups.map (·.count)).sum + 1 := by
  cases h : groups.getLast?.bind (·.extend? event) with
  | none =>
    rw [log_of_none h, List.map_append, List.sum_append]
    rfl
  | some longer =>
    obtain ⟨group, hlast, hextend⟩ := Option.bind_eq_some_iff.1 h
    obtain ⟨front, rfl⟩ := List.getLast?_eq_some_iff.1 hlast
    rw [log_concat_of_some hextend]
    simp only [List.map_append, List.sum_append, List.map_cons, List.map_nil, List.sum_cons,
      List.sum_nil, count_extend? hextend]
    omega

end Group

/-- The groups of a whole log. -/
def groups [BEq α] (events : List (Event α)) : List (Group α) := events.foldl Group.log []

theorem sum_count_foldl [BEq α] (events : List (Event α)) :
    ∀ groups : List (Group α), ((events.foldl Group.log groups).map (·.count)).sum =
      (groups.map (·.count)).sum + events.length := by
  induction events with
  | nil => intro groups; rfl
  | cons event events ih =>
    intro groups
    rw [List.foldl_cons, ih, Group.sum_count_log, List.length_cons]
    omega

/-- **The groups of a log together count every event.** -/
theorem sum_count_groups [BEq α] (events : List (Event α)) :
    ((groups events).map (·.count)).sum = events.length := by
  rw [groups, sum_count_foldl, List.map_nil, List.sum_nil, Nat.zero_add]

namespace Ring

/-- Records events in order. -/
def recordAll [BEq α] : List (Event α) → Ring α → Except OutOfBounds (Ring α)
  | [], ring => .ok ring
  | event :: events, ring => (ring.record event.line event.payload).bind (recordAll events)

theorem recordTimes_eq_recordAll [BEq α] (line : UInt16) (payload : α) (times : Nat) :
    ∀ ring : Ring α, recordTimes line payload times ring =
      recordAll (List.replicate times ⟨line, payload⟩) ring := by
  induction times with
  | zero => intro ring; rfl
  | succ times ih =>
    intro ring
    rw [recordTimes, List.replicate_succ, recordAll, funext ih]

end Ring

end Firmware.Trace
