import Firmware.Proofs.Trace.Order

/-!
# Reading with any index

Reading starts at the index after that of the slot written last, and that may be any index at all. The
sum of indices wraps, the number of slots is subtracted once, and an index at which there is no slot is
passed over. So reading goes from one slot on to the last of them and then over some of the first, and
these are the rest of the slots exactly if the index was one that the ring has, or none. From any other
index it goes over one rising stretch of neighbours, unless the ring has more than a third of all indices.

* `path_eq_of_visited`: the way past the slots, from where each step leads.
* `path_of_le`, `path_of_lt`: that way, for an index that the ring has and for any other.
* `exists_path_prefix`: it is the beginning of a way around all slots.
* `exists_path_eq_range'`: from an index that the ring does not have it does not run over the end.
* `readInTurn`: what is read of any ring.
* `readInTurn_broken`: a ring with so many slots that it is read in two stretches.
-/

namespace Firmware.Trace.Ring

variable {α : Type} {ring : Ring α}

/-- The slots that reading comes past, in order. -/
def path (ring : Ring α) : List Nat :=
  ((List.range ring.slots.length).map ring.visited).filter (· < ring.slots.length)

/-- A slot that is in use. -/
def Used (ring : Ring α) (slot : Nat) : Prop :=
  ∃ entry, ring.slots[slot]? = some entry ∧ entry.count ≠ 0

instance (slot : Nat) : Decidable (ring.Used slot) :=
  decidable_of_iff ((ring.slots[slot]?).any (·.count ≠ 0)) (by simp [Used, Option.any_eq_true])

/-- The slots whose entries are read, in order. -/
def readSlots (ring : Ring α) : List Nat := ring.path.filter (ring.Used ·)

/-! ## The way past the slots -/

/-- The slots in a rotation, as two stretches. -/
theorem rotate_range {size first : Nat} (h : first ≤ size) :
    (List.range size).rotate first = List.range' first (size - first) ++ List.range first := by
  rw [List.rotate_eq_drop_append_take (by rwa [List.length_range]), List.take_range,
    Nat.min_eq_left h, List.range_eq_range', List.drop_range', Nat.zero_add, Nat.mul_one]

theorem range_add_add (a b c : Nat) :
    List.range (a + b + c) = List.range' 0 a ++ (List.range' a b ++ List.range' (a + b) c) := by
  rw [List.range'_append_1, List.range_eq_range', Nat.add_assoc, ← List.range'_append_1,
    Nat.zero_add]

/-- Some steps in a row that lead over neighbouring slots. -/
theorem filter_map_visited (step first n : Nat)
    (h : ∀ i < n, ring.visited (step + i) = first + i ∧ first + i < ring.slots.length) :
    ((List.range' step n).map ring.visited).filter (· < ring.slots.length) =
      List.range' first n := by
  have hmap : (List.range' step n).map ring.visited = List.range' first n := by
    rw [List.range'_eq_map_range, List.range'_eq_map_range, List.map_map]
    exact List.map_congr_left fun i hi => (h i (List.mem_range.1 hi)).1
  rw [hmap, List.filter_eq_self]
  intro slot hslot
  obtain ⟨i, hi, rfl⟩ := List.mem_range'.1 hslot
  rw [Nat.one_mul]
  exact decide_eq_true (h i hi).2

/-- Some steps in a row that lead past the end. -/
theorem filter_map_visited_eq_nil {step n : Nat}
    (h : ∀ i < n, ring.slots.length ≤ ring.visited (step + i)) :
    ((List.range' step n).map ring.visited).filter (· < ring.slots.length) = [] := by
  rw [List.filter_eq_nil_iff]
  intro slot hslot
  obtain ⟨_, hstep, rfl⟩ := List.mem_map.1 hslot
  obtain ⟨i, hi, rfl⟩ := List.mem_range'.1 hstep
  rw [Nat.one_mul, decide_eq_true_iff]
  exact Nat.not_lt_of_le (h i hi)

/-- The way past the slots, if the first steps lead from some slot on to the last, the next ones past
the end, and the rest over the first slots. -/
theorem path_eq_of_visited {first again : Nat} (hagain : again ≤ first)
    (hsize : again ≤ ring.slots.length)
    (hon : ∀ i < ring.slots.length - first, ring.visited i = first + i)
    (hpast : ∀ i, ring.slots.length - first ≤ i → i < ring.slots.length - again →
      ring.slots.length ≤ ring.visited i)
    (hover : ∀ i < again, ring.visited (ring.slots.length - again + i) = i) :
    ring.path = List.range' first (ring.slots.length - first) ++ List.range again := by
  have hsteps := range_add_add (ring.slots.length - first)
    (min first ring.slots.length - again) again
  have hback : ring.slots.length - first + (min first ring.slots.length - again) =
      ring.slots.length - again := by omega
  rw [hback, Nat.sub_add_cancel hsize] at hsteps
  rw [path, hsteps, List.map_append, List.map_append, List.filter_append, List.filter_append,
    filter_map_visited 0 first _ fun i hi => ?_,
    filter_map_visited_eq_nil fun i hi => hpast _ (by omega) (by omega),
    filter_map_visited _ 0 again fun i hi => ?_, List.nil_append, ← List.range_eq_range']
  · rw [Nat.zero_add, hover i hi]
    exact ⟨rfl, by omega⟩
  · rw [Nat.zero_add, hon i hi]
    exact ⟨rfl, by omega⟩

/-- From an index that the ring has, or from none, reading comes past all slots. -/
theorem path_of_le (hsize : ring.slots.length < 2 ^ 63)
    (hstart : ring.start.toNat ≤ ring.slots.length) :
    ring.path = (List.range ring.slots.length).rotate ring.start.toNat := by
  rw [rotate_range hstart]
  refine path_eq_of_visited (Nat.le_refl _) hstart (fun i hi => ?_) (fun i hle hlt => ?_)
    (fun i hi => ?_)
  · rw [visited_eq (Nat.le_of_lt hsize) hstart (by omega), Nat.mod_eq_of_lt (by omega)]
    omega
  · omega
  · have hturn : ring.slots.length - ring.start.toNat + i + ring.start.toNat =
        ring.slots.length + i := by omega
    rw [visited_eq (Nat.le_of_lt hsize) hstart (by omega), hturn, Nat.add_mod_left,
      Nat.mod_eq_of_lt (by omega)]

/-- From any other index reading comes past the slots that are left when the number of slots has been
subtracted from it, and past those that the sum wraps to. -/
theorem path_of_lt (hsize : ring.slots.length < 2 ^ 63)
    (hstart : ring.slots.length < ring.start.toNat) :
    ring.path = List.range' (ring.start.toNat - ring.slots.length)
        (ring.slots.length - (ring.start.toNat - ring.slots.length)) ++
      List.range (ring.start.toNat + ring.slots.length - 2 ^ 64) := by
  have hlimit := ring.start.toNat_lt
  refine path_eq_of_visited (by omega) (by omega) (fun i hi => ?_) (fun i hle hlt => ?_)
    (fun i hi => ?_)
  · rw [visited_eq_reached, reached_eq, Nat.mod_eq_of_lt (by omega), if_pos (by omega)]
    omega
  · rw [visited_eq_reached, reached_eq, Nat.mod_eq_of_lt (by omega), if_pos (by omega)]
    omega
  -- the sum has run over
  · have hwrap : ring.start.toNat + (ring.slots.length -
        (ring.start.toNat + ring.slots.length - 2 ^ 64) + i) = 2 ^ 64 + i := by omega
    rw [visited_eq_reached, reached_eq, hwrap, Nat.add_mod_left, Nat.mod_eq_of_lt (by omega),
      if_neg (by omega)]

theorem toNat_start_eq_zero
    (h : ring.last = none ∨ ∃ last, ring.last = some last ∧ last.toNat = 2 ^ 64 - 1) :
    ring.start.toNat = 0 := by
  rcases h with hnone | ⟨last, hlast, hmax⟩
  · exact toNat_start_of_none hnone
  · rw [start, hlast]
    show (last + 1).toNat = 0
    rw [UInt64.toNat_add, hmax]
    rfl

/-- Reading starts at a slot, or right after the last, exactly if the index was in range, or none, or the
largest there is. -/
theorem toNat_start_le_iff : ring.start.toNat ≤ ring.slots.length ↔ ring.last = none ∨
    ∃ last, ring.last = some last ∧ (last.toNat < ring.slots.length ∨ last.toNat = 2 ^ 64 - 1) := by
  by_cases hfirst : ring.last = none ∨ ∃ last, ring.last = some last ∧ last.toNat = 2 ^ 64 - 1
  · rw [toNat_start_eq_zero hfirst]
    refine ⟨fun _ => ?_, fun _ => Nat.zero_le _⟩
    exact hfirst.imp_right fun ⟨last, hlast, hmax⟩ => ⟨last, hlast, Or.inr hmax⟩
  obtain ⟨hnone, hmax⟩ := not_or.1 hfirst
  obtain ⟨last, hlast⟩ := Option.ne_none_iff_exists'.1 hnone
  have hne : last.toNat ≠ 2 ^ 64 - 1 := fun heq => hmax ⟨last, hlast, heq⟩
  have hlimit := last.toNat_lt
  rw [toNat_start_of_some hlast (by omega)]
  simp only [hlast, reduceCtorEq, false_or, Option.some.injEq, exists_eq_left', hne, or_false,
    Nat.succ_le_iff]

theorem range_prefix {m n : Nat} (h : m ≤ n) : List.range m <+: List.range n := by
  have hfront := List.take_prefix m (List.range n)
  rwa [List.take_range, Nat.min_eq_left h] at hfront

/-- **Reading comes past the slots one after the other, around the ring.** -/
theorem exists_path_prefix (hsize : ring.slots.length < 2 ^ 63) :
    ∃ first, ring.path <+: (List.range ring.slots.length).rotate first := by
  by_cases hstart : ring.start.toNat ≤ ring.slots.length
  · refine ⟨ring.start.toNat, ?_⟩
    rw [path_of_le hsize hstart]
  have hlimit := ring.start.toNat_lt
  rw [path_of_lt hsize (Nat.lt_of_not_le hstart)]
  by_cases hfirst : ring.start.toNat - ring.slots.length ≤ ring.slots.length
  · refine ⟨ring.start.toNat - ring.slots.length, ?_⟩
    rw [rotate_range hfirst, List.prefix_append_right_inj]
    exact range_prefix (by omega)
  · refine ⟨0, ?_⟩
    rw [Nat.sub_eq_zero_of_le (Nat.le_of_not_le hfirst), List.range'_zero, List.nil_append,
      List.rotate_zero]
    exact range_prefix (by omega)

/-- **From an index that the ring does not have, reading does not run over the end**, unless the ring has
more than a third of all indices: either no slot is left when the number of slots has been subtracted, or
the sum does not wrap. -/
theorem exists_path_eq_range' (hsize : ring.slots.length < 2 ^ 63)
    (hthird : 3 * ring.slots.length < 2 ^ 64) (hstart : ring.slots.length < ring.start.toNat) :
    ∃ first count, ring.path = List.range' first count := by
  have hlimit := ring.start.toNat_lt
  rw [path_of_lt hsize hstart]
  by_cases hfirst : ring.start.toNat - ring.slots.length ≤ ring.slots.length
  · have hnone : ring.start.toNat + ring.slots.length - 2 ^ 64 = 0 := by omega
    rw [hnone, List.range_zero, List.append_nil]
    exact ⟨_, _, rfl⟩
  · rw [Nat.sub_eq_zero_of_le (Nat.le_of_not_le hfirst), List.range'_zero, List.nil_append]
    exact ⟨0, _, List.range_eq_range'⟩

theorem nodup_path (hsize : ring.slots.length < 2 ^ 63) : ring.path.Nodup := by
  obtain ⟨first, hfront⟩ := exists_path_prefix hsize
  exact (List.nodup_rotate.2 List.nodup_range).sublist hfront.sublist

/-- From an index that is neither in range nor none nor the largest, some slot is left out: the one in front
of which reading ends after the sum has wrapped. -/
theorem exists_notMem_path (hpos : ring.slots ≠ []) (hsize : ring.slots.length < 2 ^ 63)
    (hstart : ring.slots.length < ring.start.toNat) :
    ∃ slot < ring.slots.length, slot ∉ ring.path := by
  have hlength := List.length_pos_iff.2 hpos
  have hlimit := ring.start.toNat_lt
  refine ⟨ring.start.toNat + ring.slots.length - 2 ^ 64, by omega, ?_⟩
  rw [path_of_lt hsize hstart, List.mem_append, List.mem_range'_1, List.mem_range]
  omega

theorem path_congr {other : Ring α} (hlast : other.last = ring.last)
    (hlength : other.slots.length = ring.slots.length) : other.path = ring.path := by
  have hvisited : ∀ i, other.visited i = ring.visited i := by
    intro i
    rw [visited, visited, hlast, hlength]
  rw [path, path, hlength, funext hvisited]

/-! ## What is read -/

theorem mem_readSlots {slot : Nat} : slot ∈ ring.readSlots ↔ slot ∈ ring.path ∧ ring.Used slot := by
  rw [readSlots, List.mem_filter, decide_eq_true_iff]

theorem filter_eq_none_iff (slot : Nat) :
    (ring.slots[slot]?).filter (·.count ≠ 0) = none ↔ ¬ ring.Used slot := by
  simp [Used, Option.filter_eq_none_iff]

/-- Of some indices, entries are read at those that are slots in use. -/
theorem map_some_filterMap (indices : List Nat) :
    (indices.filterMap fun i => (ring.slots[i]?).filter (·.count ≠ 0)).map some =
      ((indices.filter (· < ring.slots.length)).filter (ring.Used ·)).map (ring.slots[·]?) := by
  rw [List.filter_filter]
  induction indices with
  | nil => rfl
  | cons i indices ih =>
    by_cases hused : ring.Used i
    · have ⟨entry, hentry, hcount⟩ := hused
      have hlt := (List.getElem?_eq_some_iff.1 hentry).1
      have hread : (ring.slots[i]?).filter (·.count ≠ 0) = some entry := by
        rw [hentry, Option.filter_some, if_pos (decide_eq_true hcount)]
      simp only [List.filterMap_cons, hread]
      rw [List.map_cons, ih, List.filter_cons_of_pos (by simp [hused, hlt]), List.map_cons, hentry]
    · have hnone := (filter_eq_none_iff i).2 hused
      simp only [List.filterMap_cons, hnone]
      rw [ih, List.filter_cons_of_neg (by simp [hused])]

/-- **The entries are what the slots hold that reading comes past**, slot by slot. -/
theorem map_some_entries : ring.entries.map some = ring.readSlots.map (ring.slots[·]?) := by
  rw [readSlots, path, ← map_some_filterMap, List.filterMap_map]
  rfl

theorem getLast?_entries {slot : Nat} {entry : Entry α} (hentry : ring.slots[slot]? = some entry)
    (hlast : ring.readSlots.getLast? = some slot) : ring.entries.getLast? = some entry := by
  have hsome : ring.entries.getLast?.map some = some (some entry) := by
    rw [← List.getLast?_map, map_some_entries, List.getLast?_map, hlast, Option.map_some, hentry]
  obtain ⟨found, hfound, heq⟩ := Option.map_eq_some_iff.1 hsome
  rw [hfound, Option.some.inj heq]

/-- The slot written last is read last. -/
theorem getLast?_readSlots {last : UInt64} (hsize : ring.slots.length < 2 ^ 63)
    (hlast : ring.last = some last) (hlt : last.toNat < ring.slots.length)
    (hused : ring.Used last.toNat) : ring.readSlots.getLast? = some last.toNat := by
  have hstart : ring.start.toNat = last.toNat + 1 := toNat_start_of_some hlast (by omega)
  have hpath := path_of_le hsize (by omega)
  rw [hstart, rotate_range hlt, List.range_succ, ← List.append_assoc] at hpath
  unfold readSlots
  rw [hpath, List.filter_append, List.filter_cons_of_pos (by simpa using hused), List.filter_nil,
    List.getLast?_concat]

/-- Every slot in use is read, whatever the slots hold, exactly if reading comes past all slots. -/
theorem forall_used_mem_iff (hpos : ring.slots ≠ []) (hsize : ring.slots.length < 2 ^ 63) :
    (∀ other : Ring α, other.last = ring.last → other.slots.length = ring.slots.length →
      ∀ slot, other.Used slot → slot ∈ other.readSlots) ↔
    ring.start.toNat ≤ ring.slots.length := by
  constructor
  · intro hall
    by_contra hstart
    obtain ⟨slot, hslot, hout⟩ := exists_notMem_path hpos hsize (Nat.lt_of_not_le hstart)
    -- in a ring full of entries that slot is in use as well
    let full : Ring α := ⟨ring.last,
      List.replicate ring.slots.length ⟨0, 0, 1, (ring.slots.head hpos).payload⟩⟩
    have hlength : full.slots.length = ring.slots.length := List.length_replicate
    have hpath : full.path = ring.path := path_congr rfl hlength
    have hused : full.Used slot := ⟨_, List.getElem?_replicate_of_lt hslot, by simp⟩
    have hread := hall full rfl hlength slot hused
    exact hout (hpath ▸ (mem_readSlots.1 hread).1)
  · intro hstart other hlast hlength slot hused
    refine mem_readSlots.2 ⟨?_, hused⟩
    obtain ⟨entry, hentry, -⟩ := hused
    have hlt := (List.getElem?_eq_some_iff.1 hentry).1
    rw [path_congr hlast hlength, path_of_le hsize hstart, List.mem_rotate, List.mem_range]
    omega

/-- What reading a ring comes to, whatever index it has and whatever its slots hold. -/
structure ReadInTurn (ring : Ring α) : Prop where
  /-- Where the number of slots is subtracted, that does not go below zero. -/
  exact_sub : ∀ i, ring.visited i = ring.reached i ∨
    ring.visited i + ring.slots.length = ring.reached i
  /-- Each entry is found in a slot. -/
  entries : ring.entries.map some = ring.readSlots.map (ring.slots[·]?)
  used : ∀ slot ∈ ring.readSlots, ring.Used slot
  once : ring.readSlots.Nodup
  /-- Slots are come past one after the other, around the ring, and read in that order. -/
  around : ring.readSlots.Sublist ring.path ∧
    ∃ first, ring.path <+: (List.range ring.slots.length).rotate first
  /-- Before the first event, and from the largest index, reading begins with the first slot. -/
  initial : (ring.last = none ∨ ∃ last, ring.last = some last ∧ last.toNat = 2 ^ 64 - 1) →
    ring.path = List.range ring.slots.length
  /-- From an index in range, reading begins with the slot after it. -/
  after : ∀ last, ring.last = some last → last.toNat < ring.slots.length →
    ring.path = (List.range ring.slots.length).rotate (last.toNat + 1)
  /-- From any other index, reading comes past the slots that are left when the number of slots has been
  subtracted, and then past those that the sum wraps to. Some slot is left out. -/
  beyond : ∀ last, ring.last = some last → ring.slots.length ≤ last.toNat →
    last.toNat ≠ 2 ^ 64 - 1 →
      ring.path = List.range' (last.toNat + 1 - ring.slots.length)
          (ring.slots.length - (last.toNat + 1 - ring.slots.length)) ++
        List.range (last.toNat + 1 + ring.slots.length - 2 ^ 64) ∧
      ∃ slot < ring.slots.length, slot ∉ ring.path
  /-- Every slot in use is read, whatever the slots hold, exactly from the indices above. -/
  complete : (∀ other : Ring α, other.last = ring.last → other.slots.length = ring.slots.length →
      ∀ slot, other.Used slot → slot ∈ other.readSlots) ↔
    ring.last = none ∨ ∃ last, ring.last = some last ∧
      (last.toNat < ring.slots.length ∨ last.toNat = 2 ^ 64 - 1)

/-- **A ring is read in turn, whatever index it has**: no slot twice, none that is not in use, and all that
are in use exactly if the index is one that the ring has, or none, or the largest there is. From any other
index the slots that reading comes past are one rising stretch of neighbours, if there are three times as
many indices as slots. An entry takes eight bytes at least, so no memory holds a ring with more. -/
theorem readInTurn (hpos : ring.slots ≠ []) (hsize : ring.slots.length < 2 ^ 63) :
    ring.ReadInTurn ∧ (3 * ring.slots.length < 2 ^ 64 → ∀ last, ring.last = some last →
      ring.slots.length ≤ last.toNat → last.toNat ≠ 2 ^ 64 - 1 →
        ∃ first count, ring.path = List.range' first count) := by
  have hbeyond : ∀ last, ring.last = some last → ring.slots.length ≤ last.toNat →
      last.toNat ≠ 2 ^ 64 - 1 →
        ring.start.toNat = last.toNat + 1 ∧ ring.slots.length < ring.start.toNat := by
    intro last hlast hle hmax
    have hlimit := last.toNat_lt
    have hstart := toNat_start_of_some hlast (by omega)
    exact ⟨hstart, by omega⟩
  refine ⟨?_, fun hthird last hlast hle hmax =>
    exists_path_eq_range' hsize hthird (hbeyond last hlast hle hmax).2⟩
  exact {
    exact_sub i := by
      rw [visited_eq_reached]
      split
      next hle => exact Or.inr (Nat.sub_add_cancel hle)
      next => exact Or.inl rfl
    entries := map_some_entries
    used _ hslot := (mem_readSlots.1 hslot).2
    once := (nodup_path hsize).filter _
    around := ⟨List.filter_sublist, exists_path_prefix hsize⟩
    initial hfirst := by
      have hstart := toNat_start_eq_zero hfirst
      rw [path_of_le hsize (by omega), hstart, List.rotate_zero]
    after last hlast hlt := by
      have hstart := toNat_start_of_some hlast (by omega)
      rw [path_of_le hsize (by omega), hstart]
    beyond last hlast hle hmax := by
      obtain ⟨hstart, hlt⟩ := hbeyond last hlast hle hmax
      refine ⟨?_, exists_notMem_path hpos hsize hlt⟩
      rw [path_of_lt hsize hlt, hstart]
    complete := by rw [forall_used_mem_iff hpos hsize, toNat_start_le_iff] }

/-- An index so near to the largest that the sum wraps in the middle: the first three slots are come past,
and two of them are in use. -/
theorem readInTurn_wrapped :
    let ring : Ring Nat := ⟨some 0xfffffffffffffffd,
      [⟨1, 7, 2, 10⟩, ⟨2, 7, 0, 20⟩, ⟨3, 7, 5, 30⟩, ⟨4, 6, 1, 40⟩, ⟨5, 6, 1, 50⟩]⟩
    ring.slots ≠ [] ∧ ring.slots.length < 2 ^ 63 ∧ 3 * ring.slots.length < 2 ^ 64 ∧
      ring.path = [0, 1, 2] ∧ (∃ first count, ring.path = List.range' first count) ∧
      ring.entries.map some = [some ⟨1, 7, 2, 10⟩, some ⟨3, 7, 5, 30⟩] ∧
      ∃ slot < ring.slots.length, slot ∉ ring.path := by
  intro ring
  have hpos : ring.slots ≠ [] := List.cons_ne_nil _ _
  have hsize : ring.slots.length < 2 ^ 63 := by decide
  have hthird : 3 * ring.slots.length < 2 ^ 64 := by decide
  have hslots : ring.readSlots = [0, 2] := by decide +kernel
  obtain ⟨hread, hblock⟩ := readInTurn hpos hsize
  have hentries := hread.entries
  rw [hslots] at hentries
  obtain ⟨hpath, hout⟩ := hread.beyond _ rfl (by decide) (by decide)
  exact ⟨hpos, hsize, hthird, hpath.trans (by decide +kernel),
    hblock hthird _ rfl (by decide) (by decide), hentries, hout⟩

/-- **A ring with half of all indices can be read in two stretches**: all its slots are in use, reading
starts with the fourth, goes on to the last and then comes to the first, and leaves out the second and the
third. -/
theorem readInTurn_broken :
    let ring : Ring Nat :=
      ⟨some 0x8000000000000001, List.replicate 0x7fffffffffffffff ⟨0, 0, 1, 0⟩⟩
    ring.slots.length = 2 ^ 63 - 1 ∧ ring.readSlots = List.range' 3 (2 ^ 63 - 4) ++ [0] ∧
      ¬ ∃ first count, ring.readSlots = List.range' first count := by
  intro ring
  have hlength : ring.slots.length = 2 ^ 63 - 1 := List.length_replicate
  have hlast : ring.last = some 0x8000000000000001 := rfl
  have hstart : ring.start.toNat = 2 ^ 63 + 2 := toNat_start_of_some hlast (by decide)
  have hused : ∀ slot ∈ ring.path, ring.Used slot := by
    intro slot hslot
    have hlt := of_decide_eq_true (List.mem_filter.1 hslot).2
    exact ⟨⟨0, 0, 1, 0⟩, List.getElem?_replicate_of_lt (by omega), by decide⟩
  have hread : ring.readSlots = List.range' 3 (2 ^ 63 - 4) ++ [0] := by
    have hpath := path_of_lt (by omega) (by omega : ring.slots.length < ring.start.toNat)
    have hall : ring.readSlots = ring.path :=
      List.filter_eq_self.2 fun slot hslot => decide_eq_true (hused slot hslot)
    rw [hall, hpath, hlength, hstart]
    rfl
  refine ⟨hlength, hread, ?_⟩
  rintro ⟨first, count, hblock⟩
  have hfirst : 0 ∈ List.range' first count := by
    rw [← hblock, hread]
    exact List.mem_append_right _ List.mem_cons_self
  have hfourth : 3 ∈ List.range' first count := by
    rw [← hblock, hread]
    exact List.mem_append_left _ (List.mem_range'_1.2 (by omega))
  have hsecond : 1 ∈ ring.readSlots := by
    rw [hblock, List.mem_range'_1]
    rw [List.mem_range'_1] at hfirst hfourth
    omega
  rw [hread, List.mem_append, List.mem_range'_1, List.mem_singleton] at hsecond
  omega

end Firmware.Trace.Ring
