import Firmware.Crash.Slot
import Firmware.Proofs.Text.Names

/-!
# What writers leave in the slot

A writer erases the slot before it stores anything, so that what it leaves does not depend on what
was there.

* `raw_fill`: the image after a fill, for any parts and whatever the slot held.
* `read?_writeAssert`, `read?_writeStackOverflow`, `read?_writeFault`, `read?_writeWord`: what each
  writer stored is read back.
* `read?_apply`: so every change leaves a record of its own.
-/

namespace Firmware.Crash

open Memory Text

namespace Slot

variable {slot : Slot}

theorem toList_payload (slot : Slot) : slot.raw.payload.toList = slot.memory.toList.drop 4 := by
  have hlen := slot.memory.length_toList
  have hslice : slot.memory.slice payloadOffset payloadSize = slot.memory.toList.drop 4 := by
    rw [Block.slice, payloadOffset, List.take_of_length_le]
    rw [List.length_drop, hlen, RawRecord.size]
    omega
  rw [raw, Block.window, Block.toList_fit 0, hslice]
  rw [hslice, List.length_drop, hlen, RawRecord.size]
  omega

/-- The image in a slot is all there is to it. -/
theorem ofRaw_raw (slot : Slot) : ofRaw slot.raw = slot := by
  have hlen := slot.memory.length_toList
  have hfour : (slot.memory.slice 0 4).length = 4 := by
    rw [Block.length_slice, RawRecord.size]
    omega
  have hmemory : (ofRaw slot.raw).memory = slot.memory := by
    apply Block.ext
    rw [toList_ofRaw, RawRecord.bytes, toList_payload,
      show slot.raw.kind = LittleEndian.toWord (slot.memory.slice 0 4) from rfl,
      LittleEndian.ofWord_toWord hfour, Block.slice, List.drop_zero, List.take_append_drop]
  cases slot
  exact congrArg Slot.mk hmemory

/-! ## The steps of a fill -/

/-- Words of zeros that are stored one after another leave zeros up to where they got. -/
theorem getElem?_erase_steps (memory : Block RawRecord.size) (words i : Nat) :
    ((List.range words).foldl
      (fun memory i => memory.write (4 * i) (LittleEndian.ofWord 0)) memory).toList[i]? =
        if i < 4 * words ∧ i < RawRecord.size then some 0 else memory.toList[i]? := by
  induction words with
  | zero => simp
  | succ words ih =>
    rw [List.range_succ, List.foldl_append, List.foldl_cons, List.foldl_nil, Block.getElem?_write,
      ih, LittleEndian.ofWord_zero]
    simp only [List.length_cons, List.length_nil]
    by_cases hword : 4 * words ≤ i ∧ i < 4 * words + 4 ∧ i < RawRecord.size
    · rw [if_pos hword, if_pos (by omega)]
      obtain ⟨k, hk⟩ : ∃ k, i - 4 * words = k := ⟨_, rfl⟩
      have hk4 : k = 0 ∨ k = 1 ∨ k = 2 ∨ k = 3 := by omega
      rw [hk]
      rcases hk4 with rfl | rfl | rfl | rfl <;> rfl
    · rw [if_neg hword]
      by_cases hbefore : i < 4 * words ∧ i < RawRecord.size
      · rw [if_pos hbefore, if_pos (by omega)]
      · rw [if_neg hbefore, if_neg (by omega)]

theorem erase_eq_zero (slot : Slot) : slot.erase = zero := by
  have hmemory : slot.erase.memory = zero.memory := by
    apply Block.ext
    apply List.ext_getElem?
    intro i
    rw [erase, getElem?_erase_steps, zero, toList_ofRaw]
    rw [show RawRecord.zero.bytes = List.replicate RawRecord.size 0 from by decide,
      List.getElem?_replicate]
    have hwords : 4 * wordCount = RawRecord.size := rfl
    rw [hwords]
    by_cases hi : i < RawRecord.size
    · rw [if_pos ⟨hi, hi⟩, if_pos hi]
    · rw [if_neg (fun h => hi h.1), if_neg hi, List.getElem?_eq_none]
      rw [slot.memory.length_toList]
      omega
  exact congrArg Slot.mk hmemory

theorem raw_mark (kind : Kind) (slot : Slot) :
    (slot.mark kind).raw = ⟨kind.code, slot.raw.payload⟩ := by
  have hkind : (slot.mark kind).rawKind = kind.code :=
    Block.word_write kind.code (by decide)
  have hpayload : (slot.mark kind).raw.payload = slot.raw.payload :=
    Block.window_write_of_disjoint (Or.inr (by rw [LittleEndian.length_ofWord]; decide))
  rw [← hkind, ← hpayload]
  rfl

theorem raw_storePart (offset : Nat) (bytes : List UInt8) (slot : Slot) :
    (slot.storePart offset bytes).raw = ⟨slot.raw.kind, slot.raw.payload.write offset bytes⟩ := by
  have hkind : (slot.storePart offset bytes).rawKind = slot.rawKind :=
    Block.word_write_of_disjoint (Or.inl (by rw [payloadOffset]; omega))
  have hpayload : (slot.storePart offset bytes).raw.payload =
      slot.raw.payload.write offset bytes := by
    apply Block.ext
    apply List.ext_getElem?
    intro i
    rw [toList_payload, List.getElem?_drop, storePart, Block.getElem?_write, Block.getElem?_write,
      toList_payload, List.getElem?_drop, List.length_take]
    have hoffset : payloadOffset = 4 := rfl
    have hsize : RawRecord.size = 4 + payloadSize := rfl
    by_cases hcovered : offset ≤ i ∧ i < offset + bytes.length ∧ i < payloadSize
    · rw [if_pos (by omega), if_pos hcovered, List.getElem?_take, if_pos (by omega)]
      congr 1
      omega
    · rw [if_neg (by omega), if_neg hcovered]
  rw [← hpayload]
  exact congrArg (RawRecord.mk · _) hkind

/-- **The image after a fill**: the kind, and on zeros the parts in their order. -/
theorem raw_fill (kind : Kind) (parts : List (Nat × List UInt8)) (slot : Slot) :
    (slot.fill kind parts).raw =
      ⟨kind.code, parts.foldl (fun payload part => payload.write part.1 part.2) Block.zero⟩ := by
  have key : ∀ (parts : List (Nat × List UInt8)) (slot : Slot),
      (parts.foldl (fun slot part => slot.storePart part.1 part.2) slot).raw =
        ⟨slot.raw.kind, parts.foldl (fun payload part => payload.write part.1 part.2)
          slot.raw.payload⟩ := by
    intro parts
    induction parts with
    | nil => intro slot; rfl
    | cons part parts ih => intro slot; rw [List.foldl_cons, ih, raw_storePart, List.foldl_cons]
  rw [fill, key, raw_mark, erase_eq_zero, zero, raw_ofRaw]
  rfl

/-! ## What is read back -/

theorem read?_fill {kind : Kind} (hkind : kind ≠ .noCrash) (parts : List (Nat × List UInt8))
    (slot : Slot) :
    (slot.fill kind parts).read? = RawRecord.decodeAs
      (parts.foldl (fun payload part => payload.write part.1 part.2) Block.zero) kind := by
  rw [read?, raw_fill, RawRecord.decode?, Kind.ofStored?_code, if_neg hkind]
  rfl

/-- A name that was stored on zeros is found with its terminator and zeros after it. -/
theorem ofRaw_window_write {size capacity : Nat} {name : List UInt8} (hsize : capacity < size)
    (hname : name.length ≤ capacity) :
    Bounded.ofRaw (((Block.zero : Block size).write 0 name).window 0) =
      (⟨Block.fit 0 name⟩ : Bounded capacity) := by
  rw [Bounded.ofRaw]
  congr 1
  apply Block.ext
  apply List.ext_getElem?
  intro i
  rw [Block.getElem?_write, Block.getElem?_window (by omega), Block.getElem?_fit, Nat.zero_add,
    Block.getElem?_write, Block.getElem?_zero, Nat.sub_zero, List.length_singleton]
  rcases Nat.lt_trichotomy i capacity with hi | rfl | hi
  · rw [if_neg (by omega), if_pos (by omega), if_pos (show i < capacity + 1 by omega)]
    by_cases hcovered : i < name.length
    · rw [if_pos (by omega), List.getElem?_eq_getElem hcovered, Option.getD_some]
    · rw [if_neg (by omega), if_pos (by omega), List.getElem?_eq_none (by omega), Option.getD_none]
  -- the terminator
  · rw [if_pos (by omega), if_pos (by omega), List.getElem?_eq_none hname, Nat.sub_self]
    rfl
  · rw [if_neg (by omega), if_neg (by omega), if_neg (by omega)]

theorem read?_writeAssert (file : List UInt8) (line : UInt32) (slot : Slot) :
    (slot.writeAssert file line).read? = some (.assert (Bounded.ofTerminated file) line) := by
  have hname := CString.length_untilZero_le fileNameCapacity file
  have hline : lineOffset = fileNameCapacity + 1 := rfl
  rw [writeAssert, read?_fill (by decide), List.foldl_cons, List.foldl_cons, List.foldl_nil,
    RawRecord.decodeAs, Block.word_write line (by decide),
    Block.window_write_of_disjoint (Or.inl (by omega)), ofRaw_window_write (by decide) hname]
  rfl

theorem read?_writeStackOverflow (task : List UInt8) (slot : Slot) :
    (slot.writeStackOverflow task).read? = some (.stackOverflow (Bounded.ofTerminated task)) := by
  have hname := CString.length_untilZero_le taskNameCapacity task
  rw [writeStackOverflow, read?_fill (by decide), List.foldl_cons, List.foldl_nil,
    RawRecord.decodeAs, ofRaw_window_write (by decide) hname]
  rfl

theorem read?_writeFault (dump : FaultDump) (slot : Slot) :
    (slot.writeFault dump).read? = some (.fault dump) := by
  have hword : ∀ {i : Nat} {word : UInt32}, dump.words[i]? = some word →
      ((Block.zero : Block payloadSize).write 0 dump.bytes).word (4 * i) = word :=
    Block.word_write_words dump.words (show 4 * 13 ≤ payloadSize by decide)
  rw [writeFault, read?_fill (by decide), List.foldl_cons, List.foldl_nil, RawRecord.decodeAs,
    FaultDump.ofRegister]
  simp only [hword (i := 0) rfl, hword (i := 1) rfl, hword (i := 2) rfl, hword (i := 3) rfl,
    hword (i := 4) rfl, hword (i := 5) rfl, hword (i := 6) rfl, hword (i := 7) rfl,
    hword (i := 8) rfl, hword (i := 9) rfl, hword (i := 10) rfl, hword (i := 11) rfl,
    hword (i := 12) rfl]

theorem read?_writeWord {kind : Kind} (hkind : kind ≠ .noCrash) (word : UInt32) (slot : Slot) :
    (slot.writeWord kind word).read? =
      RawRecord.decodeAs (Block.zero.write 0 (LittleEndian.ofWord word)) kind := by
  rw [writeWord, read?_fill hkind]
  rfl

theorem read?_zero : zero.read? = none := by
  rw [read?, zero, raw_ofRaw]
  rfl

end Slot

/-- The record as it is read back after it was stored: of a name only the bytes before its
terminator are left. -/
def Record.trimmed : Record → Record
  | .assert file line => .assert (Bounded.ofTerminated file.bytes) line
  | .stackOverflow task => .stackOverflow (Bounded.ofTerminated task.bytes)
  | record => record

namespace Slot

/-- **A record is read back as it was stored**, up to what follows the terminator of a name. -/
theorem read?_write (record : Record) (slot : Slot) :
    (slot.write record).read? = some record.trimmed := by
  have hword : ∀ word : UInt32,
      ((Block.zero : Block payloadSize).write 0 (LittleEndian.ofWord word)).word 0 = word :=
    fun word => Block.word_write word (by decide)
  cases record with
  | assert file line => exact read?_writeAssert file.bytes line slot
  | railAssert code =>
    rw [write, read?_writeWord (by decide), RawRecord.decodeAs, hword]
    rfl
  | stackOverflow task => exact read?_writeStackOverflow task.bytes slot
  | stackProtector address =>
    rw [write, read?_writeWord (by decide), RawRecord.decodeAs, hword]
    rfl
  | fault dump => exact read?_writeFault dump slot
  | runtimeError code =>
    rw [write, read?_writeWord (by decide), RawRecord.decodeAs, hword]
    rfl
  | exit status =>
    rw [write, read?_writeWord (by decide), RawRecord.decodeAs, hword]
    rfl

/-- The record that a change leaves. -/
def Write.record? : Write → Option Record
  | .assert file line => some (.assert (Bounded.ofTerminated file) line)
  | .railAssert code => some (.railAssert code)
  | .stackOverflow task => some (.stackOverflow (Bounded.ofTerminated task))
  | .stackProtector address => some (.stackProtector address)
  | .fault dump => some (.fault dump)
  | .runtimeError code => some (.runtimeError code)
  | .exit status => some (.exit status)
  | .record stored => some stored.trimmed
  | .overwrite raw => raw.decode?
  | .clear => none

/-- **Every change leaves a record of its own**, whatever the slot held. -/
theorem read?_apply (change : Write) (slot : Slot) :
    (slot.apply change).read? = change.record? := by
  cases change with
  | assert file line => exact read?_writeAssert file line slot
  | railAssert code => exact read?_write (.railAssert code) slot
  | stackOverflow task => exact read?_writeStackOverflow task slot
  | stackProtector address => exact read?_write (.stackProtector address) slot
  | fault dump => exact read?_writeFault dump slot
  | runtimeError code => exact read?_write (.runtimeError code) slot
  | exit status => exact read?_write (.exit status) slot
  | record record => exact read?_write record slot
  | overwrite raw => rw [apply, read?, raw_ofRaw, Write.record?]
  | clear => exact read?_zero

end Slot

end Firmware.Crash
