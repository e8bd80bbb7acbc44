import Firmware.Memory.CString
import Firmware.Proofs.Text.Names

/-!
# Scanning for a terminator

The reader of a string knows neither how long it is nor how far memory goes. It is promised that it may
read on up to a zero byte or up to its limit, whichever comes first, and it keeps to that: the offsets it
reads are told by running the same reader with a fetch that notes them.

* `scan_fetch`, `noted_fst`: the reader is one program, whether its reads are noted or not.
* `readable_iff`: where the promise is kept, a string is spelled.
* `noted_of_spells`: that string is found, and its bytes and its terminator are read in turn.
* `spells_of_holds`: bytes in memory with a zero after them spell what `untilZero` finds.
* `read_within`: no reader goes beyond what it was promised.
-/

namespace Firmware.Memory.CString

variable {memory : Contents} {max : Nat} {bytes name : List UInt8} {address : Option Contents}

/-- At an address stands a string with a zero byte after it; what follows may be anything, or may be
out of reach. No address is the empty string. -/
def Holds (address : Option Contents) (name : List UInt8) : Prop :=
  match address with
  | none => name = []
  | some memory => ∀ i b, Contents.ofBytes (name ++ [0]) i = some b → memory i = some b

/-- What a reader of at most `max` bytes is promised: it may read an offset below `max` if no zero byte
stands before it. -/
def Readable (memory : Contents) (max : Nat) : Prop :=
  ∀ i < max, (∀ j < i, memory j ≠ some 0) → memory i ≠ none

/-- The bytes in memory before the first zero byte, and at most `max` of them. -/
structure Spells (memory : Contents) (max : Nat) (bytes : List UInt8) : Prop where
  stored : ∀ i b, bytes[i]? = some b → memory i = some b
  zero_notMem : 0 ∉ bytes
  length_le : bytes.length ≤ max
  ended : bytes.length < max → memory bytes.length = some 0

/-! ## The reads of a reader -/

/-- The reader from an offset on, with the way in which it fetches a byte left open. -/
def scan {m : Type → Type} [Monad m] (fetch : Nat → m UInt8) : (max offset : Nat) → m (List UInt8)
  | 0, _ => pure []
  | max + 1, offset => do
    let b ← fetch offset
    if b = 0 then
      pure []
    else
      let rest ← scan fetch max (offset + 1)
      pure (b :: rest)

/-- Fetches a byte that may be read. -/
def Contents.fetch (memory : Contents) (offset : Nat) : Except Refused UInt8 :=
  match memory offset with
  | none => .error ⟨offset⟩
  | some b => .ok b

/-- Fetches a byte and notes its offset, also where the read is refused. -/
def Contents.fetchNoted (memory : Contents) (offset : Nat) :
    ExceptT Refused (StateM (List Nat)) UInt8 := do
  modify (· ++ [offset])
  liftM (memory.fetch offset)

/-- What a reader returns, and the notes that it has then, some of which were made before. -/
def noted (memory : Contents) (max offset : Nat) (notes : List Nat) :
    Except Refused (List UInt8) × List Nat :=
  (scan memory.fetchNoted max offset).run.run notes

/-- What the reader of a string returns, and the offsets that it has read by then. -/
def readNoted (address : Option Contents) (max : Nat) : Except Refused (List UInt8) × List Nat :=
  match address with
  | none => (.ok [], [])
  | some memory => noted memory max 0 []

/-- The reader is a scan. -/
theorem scan_fetch (memory : Contents) (max offset : Nat) :
    scan memory.fetch max offset = readFrom memory max offset := by
  induction max generalizing offset with
  | zero => rfl
  | succ max ih =>
    rw [scan, readFrom, Contents.fetch, ih]
    cases memory offset with
    | none => rfl
    | some b =>
      by_cases hzero : b = 0
      · subst hzero
        rfl
      · show (if b = 0 then _ else _) = _
        rw [if_neg hzero]
        dsimp only
        rw [if_neg hzero]
        cases readFrom memory max (offset + 1) <;> rfl

/-- One read, in closed form. -/
theorem noted_succ (memory : Contents) (max offset : Nat) (notes : List Nat) :
    noted memory (max + 1) offset notes =
      match memory offset with
      | none => (.error ⟨offset⟩, notes ++ [offset])
      | some b =>
        if b = 0 then (.ok [], notes ++ [offset])
        else
          let (result, notes) := noted memory max (offset + 1) (notes ++ [offset])
          ((b :: ·) <$> result, notes) := by
  have hfetch : (memory.fetchNoted offset).run.run notes =
      (memory.fetch offset, notes ++ [offset]) := rfl
  unfold noted
  rw [scan, ExceptT.run_bind, StateT.run_bind, hfetch, Contents.fetch]
  cases memory offset with
  | none => rfl
  | some b =>
    dsimp only
    by_cases hzero : b = 0
    · rw [if_pos hzero]
      subst hzero
      rfl
    · rw [if_neg hzero]
      show StateT.run (m := Id) (ExceptT.run (if b = 0 then _ else _)) (notes ++ [offset]) = _
      rw [if_neg hzero, ExceptT.run_bind, StateT.run_bind]
      obtain ⟨result, left⟩ := (scan memory.fetchNoted max (offset + 1)).run.run (notes ++ [offset])
      cases result <;> rfl

/-- The notes take nothing away from the reader. -/
theorem noted_fst (memory : Contents) (max offset : Nat) (notes : List Nat) :
    (noted memory max offset notes).1 = readFrom memory max offset := by
  induction max generalizing offset notes with
  | zero => rfl
  | succ max ih =>
    rw [noted_succ, readFrom]
    cases memory offset with
    | none => rfl
    | some b =>
      dsimp only
      by_cases hzero : b = 0
      · rw [if_pos hzero, if_pos hzero]
      · rw [if_neg hzero, if_neg hzero, ← ih (offset + 1) (notes ++ [offset])]

theorem readNoted_fst (address : Option Contents) (max : Nat) :
    (readNoted address max).1 = read address max := by
  cases address with
  | none => rfl
  | some memory => exact noted_fst memory max 0 []

/-! ## What is read -/

theorem Spells.get (h : Spells memory max bytes) {i : Nat} (hi : i < bytes.length) :
    memory i = some bytes[i] := h.stored i _ (List.getElem?_eq_getElem hi)

theorem Spells.ne_zero (h : Spells memory max bytes) {i : Nat} (hi : i < bytes.length) :
    memory i ≠ some 0 := by
  intro hbyte
  rw [h.get hi, Option.some.injEq] at hbyte
  exact h.zero_notMem (hbyte ▸ List.getElem_mem hi)

/-- With a larger limit the string goes on by the byte after it. -/
theorem Spells.concat (h : Spells memory max bytes) (hall : bytes.length = max) {b : UInt8}
    (hb : memory max = some b) (hne : b ≠ 0) : Spells memory (max + 1) (bytes ++ [b]) where
  stored := by
    intro i b' hi
    rcases Nat.lt_or_ge i bytes.length with hlt | hge
    · rw [List.getElem?_append_left hlt] at hi
      exact h.stored i b' hi
    · obtain ⟨hlast, rfl⟩ := List.getElem?_eq_some_iff.1 hi
      rw [List.length_append, List.length_singleton] at hlast
      obtain rfl : i = bytes.length := by omega
      rw [List.getElem_concat_length rfl, hall, hb]
  zero_notMem := by
    rw [List.mem_append, List.mem_singleton]
    rintro (hmem | heq)
    · exact h.zero_notMem hmem
    · exact hne heq.symm
  length_le := by rw [List.length_append, List.length_singleton, hall]
  ended := by
    intro hlt
    rw [List.length_append, List.length_singleton] at hlt
    omega

/-- The string is found byte by byte: each further one may be read as long as none was zero. -/
theorem exists_spells (h : Readable memory max) : ∃ bytes, Spells memory max bytes := by
  induction max with
  | zero => exact ⟨[], by simp, List.not_mem_nil, Nat.le_refl 0, by simp⟩
  | succ max ih =>
    obtain ⟨bytes, hspells⟩ := ih fun i hi => h i (Nat.lt_succ_of_lt hi)
    have hle := hspells.length_le
    rcases Nat.lt_or_eq_of_le hle with hlt | hall
    · exact ⟨bytes, hspells.stored, hspells.zero_notMem, by omega, fun _ => hspells.ended hlt⟩
    obtain ⟨b, hb⟩ := Option.ne_none_iff_exists'.1
      (h max (Nat.lt_succ_self max) fun j hj => hspells.ne_zero (hall ▸ hj))
    by_cases hend : b = 0
    · subst hend
      exact ⟨bytes, hspells.stored, hspells.zero_notMem, by omega, fun _ => hall ▸ hb⟩
    · exact ⟨bytes ++ [b], hspells.concat hall hb hend⟩

theorem Spells.readable (h : Spells memory max bytes) : Readable memory max := by
  intro i hi hunended
  rcases Nat.lt_trichotomy i bytes.length with hlt | rfl | hgt
  · rw [h.get hlt]
    exact Option.some_ne_none _
  · rw [h.ended hi]
    exact Option.some_ne_none _
  · exact absurd (h.ended (by omega)) (hunended bytes.length hgt)

/-- **Where the promise is kept, a string is spelled**, and nowhere else. -/
theorem readable_iff : Readable memory max ↔ ∃ bytes, Spells memory max bytes := by
  constructor
  · exact exists_spells
  · rintro ⟨bytes, h⟩
    exact h.readable

/-- A reader that has come to some byte of a string, or to the zero after it, finds the rest. -/
theorem noted_of_spells_drop (h : Spells memory max bytes) (left offset : Nat) (notes : List Nat)
    (hleft : offset + left = max) (hoffset : offset ≤ bytes.length) :
    noted memory left offset notes = (.ok (bytes.drop offset),
      notes ++ List.range' offset (min left (bytes.length + 1 - offset))) := by
  induction left generalizing offset notes with
  | zero =>
    have hle := h.length_le
    rw [List.drop_eq_nil_of_le (by omega), Nat.zero_min, List.range'_zero, List.append_nil]
    rfl
  | succ left ih =>
    rw [noted_succ]
    rcases Nat.lt_or_eq_of_le hoffset with hlt | heq
    · have hzero : bytes[offset] ≠ 0 := fun heq => h.ne_zero hlt (heq ▸ h.get hlt)
      have hcount : min (left + 1) (bytes.length + 1 - offset) =
          min left (bytes.length + 1 - (offset + 1)) + 1 := by omega
      rw [h.get hlt, hcount, List.range'_succ, List.drop_eq_getElem_cons hlt]
      dsimp only
      rw [if_neg hzero, ih (offset + 1) _ (by omega) hlt, List.append_assoc]
      rfl
    -- the terminator is read as well
    · have hcount : min (left + 1) (bytes.length + 1 - offset) = 1 := by omega
      rw [hcount, heq, h.ended (by omega), List.drop_length]
      rfl

/-- **The string that is spelled is found**, and its bytes are read in turn, each once; the zero byte
after it is read as well, if the limit allows that. -/
theorem noted_of_spells (h : Spells memory max bytes) :
    readNoted (some memory) max = (.ok bytes, List.range (min max (bytes.length + 1))) := by
  rw [readNoted, noted_of_spells_drop h max 0 [] (Nat.zero_add max) (Nat.zero_le _), List.drop_zero,
    List.nil_append, Nat.sub_zero, List.range_eq_range']

theorem read_of_spells (h : Spells memory max bytes) : read (some memory) max = .ok bytes := by
  rw [← readNoted_fst, noted_of_spells h]

/-- What a reader does that keeps to what it was promised: it returns what memory spells, and reads
offsets in turn, all of them readable, below its limit, and none after the first zero byte. -/
structure KeepsWithin (memory : Contents) (max : Nat) (bytes : List UInt8) (offsets : List Nat) :
    Prop where
  spelled : Spells memory max bytes
  inTurn : offsets = List.range offsets.length
  readable : ∀ i ∈ offsets, memory i ≠ none
  below : ∀ i ∈ offsets, i < max
  unended : ∀ i ∈ offsets, ∀ j < i, memory j ≠ some 0

theorem Spells.keepsWithin (h : Spells memory max bytes) :
    KeepsWithin memory max bytes (List.range (min max (bytes.length + 1))) := by
  have hunended : ∀ i ∈ List.range (min max (bytes.length + 1)), ∀ j < i, memory j ≠ some 0 := by
    intro i hi j hj
    rw [List.mem_range] at hi
    exact h.ne_zero (by omega)
  have hbelow : ∀ i ∈ List.range (min max (bytes.length + 1)), i < max := by
    intro i hi
    rw [List.mem_range] at hi
    omega
  exact ⟨h, by rw [List.length_range], fun i hi => h.readable i (hbelow i hi) (hunended i hi), hbelow,
    hunended⟩

/-! ## Two scanners -/

/-- After what `untilZero` finds stands a zero byte, if it is not cut short by the limit. -/
theorem getElem?_length_untilZero (h : (untilZero max name).length < max) :
    (name ++ [0])[(untilZero max name).length]? = some 0 := by
  induction name generalizing max with
  | nil => simp [untilZero]
  | cons b name ih =>
    cases max with
    | zero => exact absurd h (Nat.not_lt_zero _)
    | succ max =>
      unfold untilZero at h ih ⊢
      rw [List.take_succ_cons] at h ⊢
      by_cases hzero : b = 0
      · subst hzero
        rfl
      · rw [List.takeWhile_cons_of_pos (by simpa using hzero)] at h ⊢
        rw [List.length_cons] at h ⊢
        rw [List.cons_append, List.getElem?_cons_succ]
        exact ih (by omega)

/-- **Bytes in memory with a zero after them spell what `untilZero` finds in them.** -/
theorem spells_of_holds (h : Holds (some memory) name) (max : Nat) :
    Spells memory max (untilZero max name) where
  stored := by
    intro i b hi
    rw [getElem?_untilZero] at hi
    split at hi
    next =>
      have hlt := (List.getElem?_eq_some_iff.1 hi).1
      refine h i b ?_
      rw [Contents.ofBytes, List.getElem?_append_left hlt, hi]
    next => cases hi
  zero_notMem := zero_notMem_untilZero max name
  length_le := length_untilZero_le max name
  ended := fun hlt => h _ _ (getElem?_length_untilZero hlt)

/-- The reader finds what it would find in the bytes alone. -/
theorem read_of_holds (h : Holds address name) (max : Nat) :
    read address max = .ok (untilZero max name) := by
  cases address with
  | none =>
    obtain rfl : name = [] := h
    rw [read, untilZero, List.take_nil, List.takeWhile_nil]
  | some memory => exact read_of_spells (spells_of_holds h max)

/-- The same scan by position: the first zero among the bytes within the limit, or else their end. -/
theorem untilZero_eq_take (max : Nat) (bytes : List UInt8) : untilZero max bytes =
    bytes.take (((bytes.take max).findIdx? (· == 0)).getD (min bytes.length max)) := by
  have hle : (bytes.take max).findIdx (· == 0) ≤ max := by
    have hlength : (bytes.take max).findIdx (· == 0) ≤ (bytes.take max).length :=
      List.findIdx_le_length
    rw [List.length_take] at hlength
    omega
  rw [untilZero, takeWhile_eq_take_findIdx, List.take_take, Nat.min_eq_left hle,
    List.findIdx_eq_getD_findIdx?, List.length_take, Nat.min_comm]

/-- **No reader goes beyond what it was promised.** If memory can be read up to a zero byte or up to the
limit, then the reader, which is the scan whose reads are noted, comes to an end without a refusal. It
returns the bytes before the first zero and no more than the limit allows, and has read neither at the limit
nor after the zero. Without an address, or with a limit of zero, it reads nothing. Bytes with a zero after
them are such memory, and what is found there is what a scan by position finds in the bytes alone. -/
theorem read_within (max : Nat) :
    (∀ memory, read (some memory) max = scan memory.fetch max 0) ∧
    (∀ memory, Readable memory max → ∃ bytes offsets,
      readNoted (some memory) max = (.ok bytes, offsets) ∧ read (some memory) max = .ok bytes ∧
        KeepsWithin memory max bytes offsets) ∧
    (∀ address, address = none ∨ max = 0 →
      readNoted address max = (.ok [], []) ∧ read address max = .ok []) ∧
    ∀ memory name, Holds (some memory) name →
      Readable memory max ∧ read (some memory) max = .ok (untilZero max name) ∧
        untilZero max name =
          name.take (((name.take max).findIdx? (· == 0)).getD (min name.length max)) := by
  refine ⟨fun memory => ?_, fun memory h => ?_, fun address h => ?_, fun memory name h => ?_⟩
  · rw [scan_fetch, read]
  · obtain ⟨bytes, hspells⟩ := readable_iff.1 h
    exact ⟨bytes, _, noted_of_spells hspells, read_of_spells hspells, hspells.keepsWithin⟩
  · have hnoted : readNoted address max = (.ok [], []) := by
      rcases h with rfl | rfl
      · rfl
      · cases address <;> rfl
    exact ⟨hnoted, by rw [← readNoted_fst, hnoted]⟩
  · have hspells := spells_of_holds h max
    exact ⟨readable_iff.2 ⟨_, hspells⟩, read_of_spells hspells, untilZero_eq_take max name⟩

/-- A string without a terminator, at the end of memory: it can be read up to the limit, and no further. -/
theorem read_within_unterminated :
    let memory := Contents.ofBytes [0x61, 0x62]
    Readable memory 2 ∧ read (some memory) 3 = .error ⟨2⟩ ∧
      ∃ bytes offsets, readNoted (some memory) 2 = (.ok bytes, offsets) ∧ bytes = [0x61, 0x62] ∧
        ∀ i ∈ offsets, i < 2 := by
  intro memory
  have hreadable : Readable memory 2 := by
    intro i hi _
    have hcases : i = 0 ∨ i = 1 := by omega
    rcases hcases with rfl | rfl <;> decide
  obtain ⟨bytes, offsets, hnoted, hread, hkeeps⟩ := (read_within 2).2.1 memory hreadable
  have hbytes : read (some memory) 2 = .ok [0x61, 0x62] := rfl
  exact ⟨hreadable, rfl, bytes, offsets, hnoted, Except.ok.inj (hread.symm.trans hbytes), hkeeps.below⟩

end Firmware.Memory.CString
