import Mathlib.Algebra.Ring.Nat
import Mathlib.Data.List.Rotate
import Firmware.Trace.Ring

/-!
# The order in which slots are read

Slots are read from the one after the last. The index is found by a sum that wraps and by one
comparison, with no division; for an index in range it is the sum modulo the number of slots.

* `visited_eq`: the slot that is visited as number `i`.
* `entries_eq_rotate`: the entries are the used slots, rotated so that the last comes last.
-/

namespace Firmware.Trace.Ring

variable {α : Type} {ring : Ring α}

/-- The index where reading starts: the one after the last. -/
def start (ring : Ring α) : UInt64 := (ring.last.map (· + 1)).getD 0

theorem toNat_start_of_none (h : ring.last = none) : ring.start.toNat = 0 := by
  rw [start, h]
  rfl

theorem toNat_start_of_some {last : UInt64} (h : ring.last = some last)
    (hlt : last.toNat < 2 ^ 64 - 1) : ring.start.toNat = last.toNat + 1 := by
  rw [start, h]
  show (last + 1).toNat = _
  rw [UInt64.toNat_add, UInt64.toNat_one]
  exact Nat.mod_eq_of_lt (by omega)

/-- The index that reading comes to as number `i`, in front of the one comparison. -/
def reached (ring : Ring α) (i : Nat) : Nat := (ring.start + UInt64.ofNat i).toNat

theorem reached_eq (i : Nat) : ring.reached i = (ring.start.toNat + i) % 2 ^ 64 := by
  rw [reached, UInt64.toNat_add, UInt64.toNat_ofNat', Nat.add_mod_mod]

theorem visited_eq_reached (i : Nat) : ring.visited i =
    if ring.slots.length ≤ ring.reached i then ring.reached i - ring.slots.length
    else ring.reached i := rfl

/-- The one comparison is enough: neither sum runs over. -/
theorem visited_eq {i : Nat} (hsize : ring.slots.length ≤ 2 ^ 63)
    (hstart : ring.start.toNat ≤ ring.slots.length) (hi : i < ring.slots.length) :
    ring.visited i = (i + ring.start.toNat) % ring.slots.length := by
  have hsum : ring.reached i = i + ring.start.toNat := by
    rw [reached_eq, Nat.add_comm]
    exact Nat.mod_eq_of_lt (by omega)
  rw [visited_eq_reached, hsum]
  split
  next hle => rw [Nat.mod_eq_sub_mod hle, Nat.mod_eq_of_lt (by omega)]
  next hlt => rw [Nat.mod_eq_of_lt (by omega)]

theorem filterMap_range_getElem? {β : Type} (xs : List β) :
    (List.range xs.length).filterMap (xs[·]?) = xs := by
  induction xs with
  | nil => rfl
  | cons x xs ih =>
    rw [List.length_cons, List.range_succ_eq_map,
      List.filterMap_cons_some (List.getElem?_cons_zero ..), List.filterMap_map]
    exact congrArg (x :: ·) ih

/-- **The entries are the used slots in a rotation, the slot written last at the end.** -/
theorem entries_eq_rotate (hsize : ring.slots.length ≤ 2 ^ 63)
    (hstart : ring.start.toNat ≤ ring.slots.length) :
    ring.entries = (ring.slots.rotate ring.start.toNat).filter (·.count ≠ 0) := by
  have hslots : ∀ i ∈ List.range ring.slots.length,
      ring.slots[ring.visited i]? = (ring.slots.rotate ring.start.toNat)[i]? := by
    intro i hi
    have hlt := List.mem_range.1 hi
    rw [List.getElem?_rotate hlt, visited_eq hsize hstart hlt]
  have hall := filterMap_range_getElem? (ring.slots.rotate ring.start.toNat)
  rw [List.length_rotate] at hall
  rw [entries, ← List.filter_filterMap, List.filterMap_congr hslots, hall]

end Firmware.Trace.Ring
