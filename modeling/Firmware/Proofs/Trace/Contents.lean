import Firmware.Proofs.Trace.Groups
import Firmware.Proofs.Trace.Order
import Firmware.Trace.Binary64

/-!
# The ring holds the newest groups

The groups of a log are written to the slots in turn: group `m` to slot `m` modulo the number of
slots. What a ring holds is therefore settled by the groups alone and by what the slots held at
first.

* `Represents`: how a ring holds the groups of a log.
* `Represents.record`: an event keeps it.
* `recordAll_fresh`: what a fresh ring holds after any events.
-/

namespace Firmware.Trace

variable {α : Type}

namespace Ring

/-- The generation of group `m`: every turn adds one to what the slot had at first. -/
def generationAt (initial : List (Entry α)) (m : Nat) : UInt16 :=
  (initial[m % initial.length]?.map (·.generation)).getD 0 + UInt16.ofNat (m / initial.length + 1)

/-- The groups as they are written to slots. -/
def written (initial : List (Entry α)) (groups : List (Group α)) : List (Entry α) :=
  groups.mapIdx fun m group => group.entry (generationAt initial m)

/-- A ring whose slots were `initial` holds the groups of the events since: the newest ones in their
slots, and the first contents where no group has been. -/
structure Represents (initial : List (Entry α)) (ring : Ring α) (groups : List (Group α)) :
    Prop where
  length : ring.slots.length = initial.length
  outside : groups = [] → initial.length ≤ ring.lastIndex.toNat
  last : groups ≠ [] → ring.last = some (UInt64.ofNat ((groups.length - 1) % initial.length))
  newest : ∀ (m : Nat) (h : m < groups.length), groups.length ≤ m + initial.length →
    ring.slots[m % initial.length]? = some (groups[m].entry (generationAt initial m))
  untouched : ∀ j, groups.length ≤ j → ring.slots[j]? = initial[j]?

/-- An event repeats the entry of a group exactly when it extends the group. -/
theorem repeated?_of_entry [BEq α] {ring : Ring α} {group : Group α} {generation : UInt16}
    (h : ring.slots[ring.lastIndex.toNat]? = some (group.entry generation)) (event : Event α) :
    ring.repeated? event.line event.payload =
      (group.extend? event).map (·.entry generation) := by
  have hcond : ((group.entry generation).line == event.line &&
      (group.entry generation).payload == event.payload &&
      decide ((group.entry generation).count.toNat + 1 < UInt32.size)) = true ↔
      (group.line == event.line && group.payload == event.payload) ∧ group.count < 2 ^ 32 - 1 := by
    rw [Bool.and_eq_true, decide_eq_true_iff, Group.toNat_count_entry, UInt32.size]
    exact and_congr_right fun _ => by omega
  rw [repeated?, h, Group.extend?]
  by_cases hextend : (group.line == event.line && group.payload == event.payload) = true ∧
      group.count < 2 ^ 32 - 1
  · rw [dif_pos hextend, Option.map_some]
    simp only [if_pos (hcond.2 hextend)]
    simp only [Group.entry, UInt32.ofNat_add]
    rfl
  · rw [dif_neg hextend, Option.map_none]
    simp only [if_neg (mt hcond.1 hextend)]

/-- Neighbours at less than a whole turn have different slots. -/
theorem mod_ne_of_lt {m k size : Nat} (hlt : m < k) (hturn : k < m + size) :
    m % size ≠ k % size := by
  intro heq
  have hdvd : (k - m) % size = 0 := Nat.sub_mod_eq_zero_of_mod_eq heq.symm
  rw [Nat.mod_eq_of_lt (by omega)] at hdvd
  omega

/-- One comparison does for the remainder. -/
theorem add_one_mod_eq (m : Nat) {size : Nat} (hpos : 0 < size) :
    (m + 1) % size = if size ≤ m % size + 1 then 0 else m % size + 1 := by
  have hlt := Nat.mod_lt m hpos
  rw [← Nat.mod_add_mod]
  split
  next hle =>
    have hself : m % size + 1 = size := by omega
    rw [hself, Nat.mod_self]
  next hnot => exact Nat.mod_eq_of_lt (by omega)

theorem generationAt_of_lt {initial : List (Entry α)} {m : Nat} (h : m < initial.length) :
    generationAt initial m = initial[m].generation + 1 := by
  rw [generationAt, Nat.mod_eq_of_lt h, Nat.div_eq_of_lt h, List.getElem?_eq_getElem h]
  rfl

/-- The next turn adds one. -/
theorem generationAt_add_length {initial : List (Entry α)} (m : Nat) (hpos : 0 < initial.length) :
    generationAt initial (m + initial.length) = generationAt initial m + 1 := by
  rw [generationAt, generationAt, Nat.add_mod_right, Nat.add_div_right m hpos, UInt16.ofNat_add,
    ← UInt16.add_assoc]
  rfl

namespace Represents

variable {initial : List (Entry α)} {ring : Ring α} {groups : List (Group α)}

/-- A ring whose index is out of range holds no groups yet. -/
theorem nil (h : ring.slots.length ≤ ring.lastIndex.toNat) : Represents ring.slots ring [] where
  length := rfl
  outside _ := h
  last hne := absurd rfl hne
  newest m hm := absurd hm (Nat.not_lt_zero m)
  untouched _ _ := rfl

theorem toNat_lastIndex (hr : Represents initial ring groups) (hpos : 0 < initial.length)
    (hsize : initial.length < UInt64.size) (hne : groups ≠ []) :
    ring.lastIndex.toNat = (groups.length - 1) % initial.length := by
  have hmod := Nat.mod_lt (groups.length - 1) hpos
  rw [lastIndex, hr.last hne]
  exact UInt64.toNat_ofNat_of_lt' (by omega)

/-- The next slot is the next in turn. -/
theorem nextSlot_eq (hr : Represents initial ring groups) (hpos : 0 < initial.length)
    (hsize : initial.length < UInt64.size) :
    ring.nextSlot = groups.length % initial.length := by
  have hsucc : (ring.lastIndex + 1).toNat = (ring.lastIndex.toNat + 1) % UInt64.size := by
    rw [UInt64.toNat_add, UInt64.toNat_one]
  simp only [nextSlot, hr.length, hsucc]
  by_cases hnil : groups = []
  · have hout := hr.outside hnil
    have hlast := ring.lastIndex.toNat_lt_size
    rw [hnil, List.length_nil, Nat.zero_mod]
    -- the largest index there is wraps to the first slot
    by_cases hmax : ring.lastIndex.toNat + 1 = UInt64.size
    · rw [hmax, Nat.mod_self, if_neg (by omega)]
    · rw [Nat.mod_eq_of_lt (by omega), if_pos (by omega)]
  · have hk := List.length_pos_iff.2 hnil
    have hmod := Nat.mod_lt (groups.length - 1) hpos
    have hnext := add_one_mod_eq (groups.length - 1) hpos
    rw [Nat.sub_add_cancel hk] at hnext
    rw [hr.toNat_lastIndex hpos hsize hnil, hnext, Nat.mod_eq_of_lt (by omega)]

/-- The slot of the next group has been through one turn less. -/
theorem getElem?_next (hr : Represents initial ring groups) (hpos : 0 < initial.length) :
    ∃ old, ring.slots[groups.length % initial.length]? = some old ∧
      old.generation + 1 = generationAt initial groups.length := by
  by_cases hturn : groups.length < initial.length
  · refine ⟨initial[groups.length], ?_, (generationAt_of_lt hturn).symm⟩
    rw [Nat.mod_eq_of_lt hturn, hr.untouched _ (Nat.le_refl _), List.getElem?_eq_getElem hturn]
  · have hback : groups.length - initial.length + initial.length = groups.length := by omega
    have hold := hr.newest (groups.length - initial.length) (by omega) (by omega)
    rw [← Nat.add_mod_right, hback] at hold
    refine ⟨_, hold, ?_⟩
    rw [Group.entry_generation, ← generationAt_add_length _ hpos, hback]

/-- The event is compared with the newest group. -/
theorem repeated?_eq [BEq α] (hr : Represents initial ring groups) (hpos : 0 < initial.length)
    (hsize : initial.length < UInt64.size) (event : Event α) :
    ring.repeated? event.line event.payload =
      (groups.getLast?.bind (·.extend? event)).map
        (·.entry (generationAt initial (groups.length - 1))) := by
  by_cases hnil : groups = []
  · have hout := hr.outside hnil
    rw [repeated?, List.getElem?_eq_none (by rw [hr.length]; exact hout), hnil]
    rfl
  · have hk := List.length_pos_iff.2 hnil
    have hnewest := hr.newest (groups.length - 1) (by omega) (by omega)
    rw [← hr.toNat_lastIndex hpos hsize hnil, ← List.getLast_eq_getElem hnil] at hnewest
    rw [repeated?_of_entry hnewest, List.getLast?_eq_some_getLast hnil, Option.bind_some]

/-- After a write for the group behind `front` the ring holds that group and, of `front`, what is
not a whole turn back. -/
theorem write {slots : List (Entry α)} {front : List (Group α)} (hpos : 0 < initial.length)
    (hlength : slots.length = initial.length)
    (hnewest : ∀ (m : Nat) (h : m < front.length), front.length < m + initial.length →
      slots[m % initial.length]? = some (front[m].entry (generationAt initial m)))
    (huntouched : ∀ j, front.length < j → slots[j]? = initial[j]?) (group : Group α) :
    Represents initial
      ⟨some (UInt64.ofNat (front.length % initial.length)),
        slots.set (front.length % initial.length)
          (group.entry (generationAt initial front.length))⟩
      (front ++ [group]) where
  length := by rw [List.length_set, hlength]
  outside h := absurd h (by simp)
  last _ := by rw [List.length_append, List.length_singleton, Nat.add_sub_cancel]
  newest m hm hturn := by
    have hslot : front.length % initial.length < slots.length := by
      rw [hlength]
      exact Nat.mod_lt _ hpos
    rw [List.length_append, List.length_singleton] at hm hturn
    rcases Nat.lt_or_eq_of_le (Nat.le_of_lt_succ hm) with hlt | rfl
    · have hne := mod_ne_of_lt hlt (Nat.lt_of_succ_le hturn)
      rw [List.getElem?_set_ne (Ne.symm hne), hnewest m hlt (Nat.lt_of_succ_le hturn),
        List.getElem_append_left hlt]
    · rw [List.getElem?_set_self hslot, List.getElem_concat_length rfl]
  untouched j hj := by
    rw [List.length_append, List.length_singleton] at hj
    have hle := Nat.mod_le front.length initial.length
    rw [List.getElem?_set_ne (by omega), huntouched j (by omega)]

/-- **Recording an event succeeds, and the ring then holds the groups with that event.** -/
theorem record [BEq α] (hr : Represents initial ring groups) (hpos : 0 < initial.length)
    (hsize : initial.length < UInt64.size) (event : Event α) :
    ∃ next, ring.record event.line event.payload = .ok next ∧
      Represents initial next (Group.log groups event) := by
  rw [Ring.record, hr.repeated?_eq hpos hsize event]
  cases hextend : groups.getLast?.bind (·.extend? event) with
  -- the event is counted in the newest group, whose slot is written again
  | some longer =>
    obtain ⟨group, hlast, hlonger⟩ := Option.bind_eq_some_iff.1 hextend
    obtain ⟨front, rfl⟩ := List.getLast?_eq_some_iff.1 hlast
    have hne : front ++ [group] ≠ [] := by simp
    have hindex := hr.last hne
    have hslot := hr.toNat_lastIndex hpos hsize hne
    have hfront : (front ++ [group]).length - 1 = front.length := by
      rw [List.length_append, List.length_singleton, Nat.add_sub_cancel]
    rw [hfront] at hindex hslot
    refine ⟨_, rfl, ?_⟩
    rw [Group.log_concat_of_some hlonger, hslot, hfront, hindex]
    refine write hpos hr.length (fun m hm hturn => ?_) (fun j hj => ?_) longer
    · rw [hr.newest m (by simp; omega) (by simp; omega), List.getElem_append_left hm]
    · exact hr.untouched j (by simp; omega)
  -- the event starts a group, in the slot that is next in turn
  | none =>
    obtain ⟨old, hold, hgeneration⟩ := hr.getElem?_next hpos
    rw [hr.nextSlot_eq hpos hsize, Option.map_none]
    simp only [hold, hgeneration]
    refine ⟨_, rfl, ?_⟩
    rw [Group.log_of_none hextend]
    exact write hpos hr.length (fun m hm hturn => hr.newest m hm (Nat.le_of_lt hturn))
      (fun j hj => hr.untouched j (Nat.le_of_lt hj)) (.first event)

/-- And so for any events, one after the other. -/
theorem recordAll [BEq α] (hpos : 0 < initial.length) (hsize : initial.length < UInt64.size)
    (events : List (Event α)) :
    ∀ {ring : Ring α} {groups : List (Group α)}, Represents initial ring groups →
      ∃ next, Ring.recordAll events ring = .ok next ∧
        Represents initial next (events.foldl Group.log groups) := by
  induction events with
  | nil => exact fun hr => ⟨_, rfl, hr⟩
  | cons event events ih =>
    intro ring groups hr
    obtain ⟨between, hrecord, hbetween⟩ := hr.record hpos hsize event
    obtain ⟨next, hall, hnext⟩ := ih hbetween
    refine ⟨next, ?_, hnext⟩
    rw [Ring.recordAll, hrecord]
    exact hall

theorem latest_eq (hr : Represents initial ring groups) (hpos : 0 < initial.length)
    (hsize : initial.length < UInt64.size) :
    ring.latest = (written initial groups).getLast? := by
  by_cases hnil : groups = []
  · have hout := hr.outside hnil
    rw [hnil, written, List.mapIdx_nil, List.getLast?_nil, latest]
    cases hlast : ring.last with
    | none => rfl
    | some last =>
      rw [lastIndex, hlast, Option.getD_some, ← hr.length] at hout
      exact List.getElem?_eq_none hout
  · have hk := List.length_pos_iff.2 hnil
    have hmod := Nat.mod_lt (groups.length - 1) hpos
    have hnewest := hr.newest (groups.length - 1) (by omega) (by omega)
    rw [latest, hr.last hnil, Option.bind_some, UInt64.toNat_ofNat_of_lt' (by omega), hnewest,
      List.getLast?_eq_getElem?, written, List.length_mapIdx, List.getElem?_mapIdx,
      List.getElem?_eq_getElem (by omega), Option.map_some]

/-- From the slot after the last on, the slots hold what no group has reached, then the groups. -/
theorem rotate_slots (hr : Represents initial ring groups) (hpos : 0 < initial.length) :
    ring.slots.rotate groups.length =
      initial.drop groups.length ++
        (written initial groups).drop (groups.length - initial.length) := by
  have hlength : (written initial groups).length = groups.length := List.length_mapIdx
  refine List.ext_getElem? fun i => ?_
  by_cases hi : i < initial.length
  · rw [List.getElem?_rotate (by rwa [hr.length]), hr.length]
    -- in the first turn the slots that no group has reached come first
    by_cases hunused : i + groups.length < initial.length
    · rw [List.getElem?_append_left (by rw [List.length_drop]; omega), List.getElem?_drop,
        Nat.mod_eq_of_lt hunused, hr.untouched _ (Nat.le_add_left ..), Nat.add_comm]
    · rw [List.getElem?_append_right (by rw [List.length_drop]; omega), List.length_drop,
        List.getElem?_drop]
      have hindex : groups.length - initial.length + (i - (initial.length - groups.length)) =
          i + groups.length - initial.length := by omega
      have hslot : (i + groups.length) % initial.length =
          (i + groups.length - initial.length) % initial.length := Nat.mod_eq_sub_mod (by omega)
      rw [hindex, hslot, hr.newest _ (by omega) (by omega), written, List.getElem?_mapIdx,
        List.getElem?_eq_getElem (by omega), Option.map_some]
  · rw [List.getElem?_eq_none (by rw [List.length_rotate, hr.length]; omega),
      List.getElem?_eq_none (by rw [List.length_append, List.length_drop, List.length_drop]; omega)]

/-- Reading starts with the slot of the next group. -/
theorem toNat_start_mod (hr : Represents initial ring groups) (hpos : 0 < initial.length)
    (hsize : initial.length < 2 ^ 63) (hnone : groups = [] → ring.last = none) :
    ring.start.toNat ≤ initial.length ∧
      ring.start.toNat % initial.length = groups.length % initial.length := by
  by_cases hnil : groups = []
  · rw [toNat_start_of_none (hnone hnil), hnil, List.length_nil]
    exact ⟨Nat.zero_le _, rfl⟩
  · have hk := List.length_pos_iff.2 hnil
    have hmod := Nat.mod_lt (groups.length - 1) hpos
    have hlast : (UInt64.ofNat ((groups.length - 1) % initial.length)).toNat =
        (groups.length - 1) % initial.length :=
      UInt64.toNat_ofNat_of_lt' (by rw [UInt64.size]; omega)
    rw [toNat_start_of_some (hr.last hnil) (by omega), hlast]
    refine ⟨hmod, ?_⟩
    rw [Nat.mod_add_mod, Nat.sub_add_cancel hk]

theorem count_ne_zero_of_mem_written {entry : Entry α} (h : entry ∈ written initial groups) :
    entry.count ≠ 0 := by
  obtain ⟨m, hm, rfl⟩ := List.mem_mapIdx.1 h
  exact groups[m].count_entry_ne_zero _

/-- The entries that are read: what is in use of the first contents and no group has reached, then
the groups in order. -/
theorem entries_eq (hr : Represents initial ring groups) (hpos : 0 < initial.length)
    (hsize : initial.length < 2 ^ 63) (hnone : groups = [] → ring.last = none) :
    ring.entries = (initial.drop groups.length).filter (·.count ≠ 0) ++
      (written initial groups).drop (groups.length - initial.length) := by
  obtain ⟨hstart, hmod⟩ := hr.toNat_start_mod hpos hsize hnone
  have hused : ((written initial groups).drop (groups.length - initial.length)).filter
      (·.count ≠ 0) = (written initial groups).drop (groups.length - initial.length) := by
    refine List.filter_eq_self.2 fun entry hentry => decide_eq_true ?_
    exact count_ne_zero_of_mem_written (List.mem_of_mem_drop hentry)
  rw [← hr.length] at hmod
  rw [entries_eq_rotate (by rw [hr.length]; omega) (by rwa [hr.length]), ← List.rotate_mod, hmod,
    List.rotate_mod, hr.rotate_slots hpos, List.filter_append, hused]

end Represents

/-! ## A fresh ring -/

theorem represents_fresh {size : Nat} (hsize : size < UInt64.size) (payload : α) :
    Represents (fresh size payload).slots (fresh size payload) [] := by
  refine Represents.nil ?_
  rw [fresh, List.length_replicate]
  exact Nat.le_sub_one_of_lt hsize

theorem length_fresh (size : Nat) (payload : α) : (fresh size payload).slots.length = size :=
  List.length_replicate

theorem generationAt_fresh {size : Nat} (hpos : 0 < size) (payload : α) (m : Nat) :
    generationAt (fresh size payload).slots m = UInt16.ofNat (m / size + 1) := by
  have hslot : (fresh size payload).slots[m % size]? = some ⟨0, 0, 0, payload⟩ :=
    List.getElem?_replicate_of_lt (Nat.mod_lt m hpos)
  rw [generationAt, length_fresh, hslot]
  exact UInt16.zero_add _

/-- **A ring is a bounded view of the groups of its log.** Any events are recorded on a fresh ring,
which then holds the newest group of each slot, with a generation that counts the turns, and what it
held at first where no group has been. The event recorded last is in the last group, and the entries
are the last groups in order, as many as there are slots. All groups together count the events. An
array takes fewer than `2 ^ 63` bytes, so no ring has as many slots, and no index runs over. -/
theorem recordAll_fresh [BEq α] {size : Nat} (hpos : 0 < size) (hsize : size < 2 ^ 63) (payload : α)
    (events : List (Event α)) :
    ∃ ring, recordAll events (fresh size payload) = .ok ring ∧
      ring.slots.length = size ∧
      ring.last = (if groups events = [] then none
        else some (UInt64.ofNat (((groups events).length - 1) % size))) ∧
      (∀ (m : Nat) (hm : m < (groups events).length),
        (∀ n < (groups events).length, n % size = m % size → n ≤ m) →
        ring.slots[m % size]? = some ((groups events)[m].entry (UInt16.ofNat (m / size + 1)))) ∧
      (∀ j < size, (∀ m < (groups events).length, m % size ≠ j) →
        ring.slots[j]? = some ⟨0, 0, 0, payload⟩) ∧
      ring.latest = ((groups events).mapIdx fun m group =>
        group.entry (UInt16.ofNat (m / size + 1))).getLast? ∧
      ring.entries = ((groups events).mapIdx fun m group =>
        group.entry (UInt16.ofNat (m / size + 1))).drop
          ((groups events).length - min (groups events).length size) ∧
      ((groups events).map (·.count)).sum = events.length := by
  have hlength := length_fresh size payload
  have hindex : size < UInt64.size := by
    rw [UInt64.size]
    omega
  obtain ⟨ring, hrecord, hr⟩ := Represents.recordAll (by rwa [hlength]) (by rwa [hlength]) events
    (represents_fresh hindex payload)
  rw [← groups] at hr
  have hwritten : written (fresh size payload).slots (groups events) =
      (groups events).mapIdx fun m group => group.entry (UInt16.ofNat (m / size + 1)) := by
    simp only [written, generationAt_fresh hpos]
  have hunused : ((fresh size payload).slots.drop (groups events).length).filter (·.count ≠ 0) =
      [] := by
    rw [fresh, List.drop_replicate, List.filter_replicate_of_neg (by simp)]
  have hnone : groups events = [] → ring.last = none := by
    intro hnil
    have hcount := sum_count_groups events
    rw [hnil, List.map_nil, List.sum_nil] at hcount
    rw [List.length_eq_zero_iff.1 hcount.symm] at hrecord
    cases hrecord
    rfl
  refine ⟨ring, hrecord, hr.length.trans hlength, ?_, ?_, ?_, ?_, ?_, sum_count_groups events⟩
  · split
    next hnil => exact hnone hnil
    next hne => rw [hr.last hne, hlength]
  · intro m hm hnewest
    have hturn : (groups events).length ≤ m + size := by
      by_contra hlt
      have hle := hnewest (m + size) (by omega) (Nat.add_mod_right m size)
      omega
    have hslot := hr.newest m hm (by rwa [hlength])
    rwa [hlength, generationAt_fresh hpos] at hslot
  · intro j hj hnever
    have hle : (groups events).length ≤ j := by
      by_contra hlt
      exact hnever j (by omega) (Nat.mod_eq_of_lt hj)
    rw [hr.untouched j hle]
    exact List.getElem?_replicate_of_lt hj
  · rw [← hwritten]
    exact hr.latest_eq (by rwa [hlength]) (by rwa [hlength])
  · have hcut : (groups events).length - min (groups events).length size =
        (groups events).length - size := by omega
    have hentries := hr.entries_eq (by rwa [hlength]) (by rwa [hlength]) hnone
    rwa [hunused, List.nil_append, hlength, hwritten, ← hcut] at hentries

/-- Two slots, the two zeros, which are counted together, and twice what is not a number, which
never is: the third group takes the first slot again. -/
theorem recordAll_fresh_floats :
    0 < 2 ∧ 2 < 2 ^ 63 ∧
      ∃ ring : Ring Binary64, recordAll [⟨1, ⟨0⟩⟩, ⟨1, ⟨0x8000000000000000⟩⟩,
          ⟨1, ⟨0x7ff8000000000000⟩⟩, ⟨1, ⟨0x7ff8000000000000⟩⟩] (fresh 2 ⟨0⟩) = .ok ring ∧
        ring.last = some 0 ∧
        ring.slots[0]? = some ⟨1, 2, 1, ⟨0x7ff8000000000000⟩⟩ ∧
        ring.entries =
          [⟨1, 1, 1, ⟨0x7ff8000000000000⟩⟩, ⟨1, 2, 1, ⟨0x7ff8000000000000⟩⟩] := by
  have hpos : 0 < 2 := by decide
  have hsize : 2 < 2 ^ 63 := by decide
  obtain ⟨ring, hrecord, -, hlast, hnewest, -, -, hentries, -⟩ :=
    recordAll_fresh hpos hsize (⟨0⟩ : Binary64) [⟨1, ⟨0⟩⟩, ⟨1, ⟨0x8000000000000000⟩⟩,
      ⟨1, ⟨0x7ff8000000000000⟩⟩, ⟨1, ⟨0x7ff8000000000000⟩⟩]
  refine ⟨hpos, hsize, ring, hrecord, hlast, ?_, hentries⟩
  exact hnewest 2 (by decide) (by decide)

end Ring

end Firmware.Trace
