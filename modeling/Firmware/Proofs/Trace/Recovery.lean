import Mathlib.Data.List.DropRight
import Firmware.Proofs.Trace.Contents
import Firmware.Proofs.Trace.Reading

/-!
# Recovery from anything

A ring is memory that may have been overwritten with anything. One whose index is out of range starts over
at the first slot, and what its slots held is overwritten in turn, the oldest entries being read first;
one whose index is in range goes on from there.

* `record_of_not_inRange`: a ring whose index is out of range starts over.
* `record_cases`: an event changes one slot, which is then the one written last.
* `exists_record`: the slot that an event changes is read last.
* `Represents.shows`: what a ring shows of the groups that it holds.
* `recovers`: from any contents and any index, the newest entries are right.
-/

namespace Firmware.Trace

variable {α : Type}

namespace Ring

/-- The index is that of a slot. -/
def InRange (ring : Ring α) : Prop :=
  ∃ last, ring.last = some last ∧ last.toNat < ring.slots.length

/-- What a ring shows of some groups, whose first slots held `initial` before. -/
structure Shows (initial : List (Entry α)) (ring : Ring α) (groups : List (Group α)) : Prop where
  inRange : ring.InRange
  latest : ring.latest = (written initial groups).getLast?
  /-- The newest groups are read last, as many as there are slots. -/
  newest : ring.entries.rtake (min groups.length initial.length) =
    (written initial groups).rtake (min groups.length initial.length)
  /-- Once there are as many groups as slots, nothing else is read. -/
  all : initial.length ≤ groups.length →
    ring.entries = (written initial groups).rtake initial.length

section

variable {initial : List (Entry α)} {ring : Ring α} {groups : List (Group α)}

theorem Represents.inRange (hr : Represents initial ring groups) (hpos : 0 < initial.length)
    (hsize : initial.length < UInt64.size) (hne : groups ≠ []) : ring.InRange := by
  refine ⟨_, hr.last hne, ?_⟩
  have hmod := Nat.mod_lt (groups.length - 1) hpos
  rw [hr.length, UInt64.toNat_ofNat_of_lt' (by omega)]
  exact hmod

theorem rtake_append_length {β : Type} (front rest : List β) :
    (front ++ rest).rtake rest.length = rest := by
  unfold List.rtake
  rw [List.length_append, Nat.add_sub_cancel, List.drop_left]

/-- **A ring that holds groups shows the newest of them**, after what is left of its first contents. -/
theorem Represents.shows (hr : Represents initial ring groups) (hpos : 0 < initial.length)
    (hsize : initial.length < 2 ^ 63) (hne : groups ≠ []) : Shows initial ring groups := by
  have hindex : initial.length < UInt64.size := Nat.lt_trans hsize (by decide)
  have hlength : (written initial groups).length = groups.length := List.length_mapIdx
  have hentries := hr.entries_eq hpos hsize fun hnil => absurd hnil hne
  have hnewest : (written initial groups).drop (groups.length - initial.length) =
      (written initial groups).rtake (min groups.length initial.length) := by
    unfold List.rtake
    rw [hlength]
    congr 1
    omega
  have hshown : ((written initial groups).rtake (min groups.length initial.length)).length =
      min groups.length initial.length := by
    rw [← hnewest, List.length_drop, hlength]
    omega
  rw [hnewest] at hentries
  refine ⟨hr.inRange hpos hindex hne, hr.latest_eq hpos hindex, ?_, fun hfull => ?_⟩
  · have hlast := rtake_append_length ((initial.drop groups.length).filter (·.count ≠ 0))
      ((written initial groups).rtake (min groups.length initial.length))
    rwa [hshown, ← hentries] at hlast
  -- as many groups as slots have left nothing of the first contents
  · rw [hentries, List.drop_eq_nil_of_le hfull, List.filter_nil, List.nil_append,
      Nat.min_eq_right hfull]

end

section

variable {ring : Ring α}

theorem slots_ne_nil_of_length_eq {other : Ring α} (hpos : ring.slots ≠ [])
    (h : other.slots.length = ring.slots.length) : other.slots ≠ [] := by
  rw [← List.length_pos_iff, h]
  exact List.length_pos_iff.2 hpos

/-- An index out of range, or none, stands for no slot. -/
theorem length_le_toNat_lastIndex (hsize : ring.slots.length < UInt64.size) (h : ¬ ring.InRange) :
    ring.slots.length ≤ ring.lastIndex.toNat := by
  unfold lastIndex
  cases hlast : ring.last with
  | none =>
    rw [Option.getD_none, UInt64.toNat_ofNat_of_lt' (by decide)]
    omega
  | some last =>
    rw [Option.getD_some]
    by_contra hlt
    exact h ⟨last, hlast, by omega⟩

variable [BEq α]

/-- **A ring whose index is out of range starts over**: the event takes the first slot, whatever that
holds. -/
theorem record_of_not_inRange (hpos : ring.slots ≠ []) (hsize : ring.slots.length < UInt64.size)
    (h : ¬ ring.InRange) : ∃ old, ring.slots[0]? = some old ∧ ∀ event : Event α,
      ring.record event.line event.payload =
        .ok ⟨some 0, ring.slots.set 0 ⟨event.line, old.generation + 1, 1, event.payload⟩⟩ := by
  have hlength := List.length_pos_iff.2 hpos
  have hr := Represents.nil (length_le_toNat_lastIndex hsize h)
  have hnext : ring.nextSlot = 0 := by
    rw [hr.nextSlot_eq hlength hsize]
    exact Nat.zero_mod _
  have hfirst := List.getElem?_eq_getElem hlength
  refine ⟨ring.slots[0], hfirst, fun event => ?_⟩
  have hrepeated : ring.repeated? event.line event.payload = none := by
    rw [hr.repeated?_eq hlength hsize event]
    rfl
  unfold record
  simp only [hrepeated, hnext, hfirst]
  rfl

/-- Only the slot written last can have an event counted in it, and the count then does not run over. -/
theorem inRange_of_repeated? (hsize : ring.slots.length < UInt64.size) {event : Event α}
    {entry : Entry α} (h : ring.repeated? event.line event.payload = some entry) :
    ring.InRange ∧ entry.count ≠ 0 := by
  unfold repeated? at h
  split at h
  next old hold =>
    split at h
    next hcond =>
      have hlt := (List.getElem?_eq_some_iff.1 hold).1
      constructor
      · by_contra hout
        exact absurd hlt (Nat.not_lt_of_le (length_le_toNat_lastIndex hsize hout))
      · cases h
        have hcount : old.count.toNat + 1 < UInt32.size :=
          of_decide_eq_true (Bool.and_eq_true _ _ ▸ hcond).2
        intro hzero
        have hsum : (old.count + 1).toNat = old.count.toNat + 1 := by
          rw [UInt32.toNat_add, UInt32.toNat_one]
          exact Nat.mod_eq_of_lt hcount
        rw [show old.count + 1 = 0 from hzero] at hsum
        cases hsum
    next => cases h
  next => cases h

/-- **An event changes one slot**, which is then in use and the one written last. -/
theorem record_cases (hpos : ring.slots ≠ []) (hsize : ring.slots.length < UInt64.size)
    (event : Event α) : ∃ slot entry, slot.toNat < ring.slots.length ∧ entry.count ≠ 0 ∧
      ring.record event.line event.payload =
        .ok ⟨some slot, ring.slots.set slot.toNat entry⟩ := by
  cases hrepeated : ring.repeated? event.line event.payload with
  -- the event is counted
  | some entry =>
    obtain ⟨⟨last, hlast, hlt⟩, hcount⟩ := inRange_of_repeated? hsize hrepeated
    have hindex : ring.lastIndex = last := by
      unfold lastIndex
      rw [hlast, Option.getD_some]
    refine ⟨last, entry, hlt, hcount, ?_⟩
    unfold record
    rw [hrepeated, hindex, hlast]
  -- the event takes a slot of its own
  | none =>
    have hlt := ring.nextSlot_lt hpos
    have hnext : (UInt64.ofNat ring.nextSlot).toNat = ring.nextSlot :=
      UInt64.toNat_ofNat_of_lt' (Nat.lt_trans hlt hsize)
    have hold := List.getElem?_eq_getElem hlt
    refine ⟨UInt64.ofNat ring.nextSlot,
      ⟨event.line, ring.slots[ring.nextSlot].generation + 1, 1, event.payload⟩, ?_, ?_, ?_⟩
    · rwa [hnext]
    · exact (by decide : (1 : UInt32) ≠ 0)
    · unfold record
      rw [hrepeated, hnext]
      simp only [hold]

/-- **The slot that an event changes is read last.** -/
theorem exists_record (hpos : ring.slots ≠ []) (hsize : ring.slots.length < 2 ^ 63)
    (event : Event α) : ∃ slot entry after, ring.record event.line event.payload = .ok after ∧
      after.last = some slot ∧ after.slots = ring.slots.set slot.toNat entry ∧
      after.readSlots.getLast? = some slot.toNat ∧ after.entries.getLast? = some entry := by
  have hindex : ring.slots.length < UInt64.size := Nat.lt_trans hsize (by decide)
  obtain ⟨slot, entry, hlt, hcount, hrecord⟩ := record_cases hpos hindex event
  let after : Ring α := ⟨some slot, ring.slots.set slot.toNat entry⟩
  have hlength : after.slots.length = ring.slots.length := List.length_set
  have hslot : after.slots[slot.toNat]? = some entry := List.getElem?_set_self hlt
  have hlast : after.readSlots.getLast? = some slot.toNat :=
    getLast?_readSlots (by rwa [hlength]) rfl (by rwa [hlength]) ⟨entry, hslot, hcount⟩
  exact ⟨slot, entry, after, hrecord, rfl, rfl, hlast, getLast?_entries hslot hlast⟩

/-- **A ring whose index is in range keeps it there**, through any events. -/
theorem exists_recordAll_of_inRange (events : List (Event α)) :
    ∀ {ring : Ring α}, ring.slots ≠ [] → ring.slots.length < UInt64.size → ring.InRange →
      ∃ final, recordAll events ring = .ok final ∧ final.InRange ∧
        final.slots.length = ring.slots.length := by
  induction events with
  | nil => exact fun _ _ h => ⟨_, rfl, h, rfl⟩
  | cons event events ih =>
    intro ring hpos hsize _
    obtain ⟨slot, entry, hlt, -, hrecord⟩ := record_cases hpos hsize event
    let after : Ring α := ⟨some slot, ring.slots.set slot.toNat entry⟩
    have hlength : after.slots.length = ring.slots.length := List.length_set
    have hin : after.InRange := ⟨slot, rfl, by rwa [hlength]⟩
    obtain ⟨final, hall, hfinal, hsame⟩ :=
      ih (slots_ne_nil_of_length_eq hpos hlength) (by rwa [hlength]) hin
    refine ⟨final, ?_, hfinal, hsame.trans hlength⟩
    unfold recordAll
    rw [hrecord]
    exact hall

/-- **A ring recovers from anything.** If its index is out of range, or none, the first event takes the
first slot, as a new entry whatever the slot held; and as soon as events have formed groups the ring
shows the newest of them. From an index in range each event changes one slot, which is read last then.
No event is lost to a failure. (An array takes fewer than `2 ^ 63` bytes, and so has fewer slots.) -/
theorem recovers (hpos : ring.slots ≠ []) (hsize : ring.slots.length < 2 ^ 63)
    (events : List (Event α)) :
    (¬ ring.InRange →
      (∃ old, ring.slots[0]? = some old ∧ ∀ event : Event α,
        ring.record event.line event.payload =
          .ok ⟨some 0, ring.slots.set 0 ⟨event.line, old.generation + 1, 1, event.payload⟩⟩) ∧
      ∃ final, recordAll events ring = .ok final ∧
        (0 < (groups events).length → Shows ring.slots final (groups events))) ∧
    (ring.InRange → ∃ before, recordAll events ring = .ok before ∧ before.InRange ∧
      ∀ event : Event α, ∃ slot entry after, before.record event.line event.payload = .ok after ∧
        after.last = some slot ∧ after.slots = before.slots.set slot.toNat entry ∧
        after.readSlots.getLast? = some slot.toNat ∧ after.entries.getLast? = some entry) := by
  have hindex : ring.slots.length < UInt64.size := Nat.lt_trans hsize (by decide)
  constructor
  · intro hout
    have hlength := List.length_pos_iff.2 hpos
    have hr := Represents.nil (length_le_toNat_lastIndex hindex hout)
    obtain ⟨final, hall, hfinal⟩ := hr.recordAll hlength hindex events
    refine ⟨record_of_not_inRange hpos hindex hout, final, hall, fun hgroups => ?_⟩
    exact hfinal.shows hlength hsize (List.length_pos_iff.1 hgroups)
  · intro hin
    obtain ⟨before, hall, hbefore, hsame⟩ := exists_recordAll_of_inRange events hpos hindex hin
    have hne := slots_ne_nil_of_length_eq hpos hsame
    exact ⟨before, hall, hbefore, exists_record hne (by rwa [hsame])⟩

/-- A ring of three slots full of garbage, with an index that it does not have. The first slot holds what the
first event says, and yet the event is not counted there; the second event is. -/
theorem recovers_garbage :
    let ring : Ring Nat := ⟨some 99, [⟨1, 8, 41, 5⟩, ⟨2, 8, 42, 6⟩, ⟨3, 8, 43, 7⟩]⟩
    ring.slots ≠ [] ∧ ring.slots.length < 2 ^ 63 ∧ ¬ ring.InRange ∧
      ∃ final, recordAll [⟨1, 5⟩, ⟨1, 5⟩, ⟨4, 5⟩] ring = .ok final ∧ final.InRange ∧
        final.latest = some ⟨4, 9, 1, 5⟩ ∧
        final.entries.rtake 2 = [⟨1, 9, 2, 5⟩, ⟨4, 9, 1, 5⟩] := by
  intro ring
  have hpos : ring.slots ≠ [] := List.cons_ne_nil _ _
  have hsize : ring.slots.length < 2 ^ 63 := by decide
  have hout : ¬ ring.InRange := by
    rintro ⟨last, hlast, hlt⟩
    cases hlast
    exact absurd hlt (by decide)
  obtain ⟨-, final, hall, hshows⟩ := (recovers hpos hsize [⟨1, 5⟩, ⟨1, 5⟩, ⟨4, 5⟩]).1 hout
  have hgroups := hshows (by decide)
  have hwritten : written ring.slots (groups [⟨1, 5⟩, ⟨1, 5⟩, ⟨4, 5⟩]) =
      [⟨1, 9, 2, 5⟩, ⟨4, 9, 1, 5⟩] := by
    unfold ring
    rfl
  have hlatest := hgroups.latest
  have hnewest := hgroups.newest
  rw [hwritten] at hlatest hnewest
  exact ⟨hpos, hsize, hout, final, hall, hgroups.inRange, hlatest, hnewest⟩

end

end Ring

end Firmware.Trace
