import Firmware.Proofs.Crash.Image

/-!
# The stores of a fill

A fill makes its stores one by one: words of zeros over the whole slot, the word of the kind, and each
part byte by byte, as far as it lies in the payload. Here every one of them is made on its own, and one
that does not lie in the slot is an error, as is an offset that is too large for a word. None of these
errors comes up, and of several parts the last one counts.

* `foldl_write_bytes`: bytes that are stored one by one are stored as a whole.
* `fillEach_eq`: the single stores all lie in the slot, and together they are the fill.
* `fill_stores`: every byte of the slot after a fill.
-/

namespace Firmware.Memory

/-- What can be wrong with a store. -/
inductive Misstep where
  /-- The sum that makes up its offset is no word. -/
  | overflow
  /-- It does not lie in the block. -/
  | outside (offset : Nat)
deriving DecidableEq

/-- The sum of two offsets, in a word. -/
def wordSum (offset i : Nat) : Except Misstep Nat :=
  if offset + i < UInt64.size then .ok (offset + i) else .error .overflow

/-- What is done for each element of a list is done if no element is refused. -/
theorem foldlM_eq_ok {ε α β : Type} {f : β → α → Except ε β} {g : β → α → β} {elements : List α}
    (h : ∀ x ∈ elements, ∀ state, f state x = .ok (g state x)) (state : β) :
    elements.foldlM f state = .ok (elements.foldl g state) := by
  induction elements generalizing state with
  | nil => rfl
  | cons x elements ih =>
    have hfirst := h x List.mem_cons_self state
    rw [List.foldlM_cons, hfirst, List.foldl_cons]
    exact ih (fun y hy => h y (List.mem_cons_of_mem x hy)) (g state x)

namespace Block

variable {size offset : Nat} {bytes : List UInt8}

/-- Stores bytes all of which have to lie in the block. -/
def store (offset : Nat) (bytes : List UInt8) (block : Block size) : Except Misstep (Block size) :=
  if offset + bytes.length ≤ size then .ok (block.write offset bytes) else .error (.outside offset)

theorem store_eq_ok (h : offset + bytes.length ≤ size) (block : Block size) :
    block.store offset bytes = .ok (block.write offset bytes) := if_pos h

/-- **Bytes that are stored one by one are stored as a whole.** -/
theorem foldl_write_bytes (offset start : Nat) (bytes : List UInt8) (block : Block size) :
    (bytes.zipIdx start).foldl (fun block byte => block.write (offset + byte.2) [byte.1]) block =
      block.write (offset + start) bytes := by
  induction bytes generalizing start block with
  | nil => exact (write_nil _ block).symm
  | cons b bytes ih =>
    have hsplit := write_append (offset + start) [b] bytes block
    rw [List.zipIdx_cons, List.foldl_cons, ih (start + 1), ← Nat.add_assoc]
    exact hsplit.symm

end Block

end Firmware.Memory

namespace Firmware.Crash.Slot

open Memory

/-- The payload byte that the last part gives that covers it, and zero if none does. -/
def lastGiven (parts : List (Nat × List UInt8)) (i : Nat) : UInt8 :=
  (parts.reverse.findSome? (Block.given i)).getD 0

/-- Stores zeros word by word. -/
def eraseEach (memory : Block RawRecord.size) : Except Misstep (Block RawRecord.size) :=
  (List.range wordCount).foldlM
    (fun memory i => memory.store (4 * i) (LittleEndian.ofWord 0)) memory

/-- Stores a part byte by byte, of which only what lies in the payload is taken. -/
def storeEach (offset : Nat) (bytes : List UInt8) (memory : Block RawRecord.size) :
    Except Misstep (Block RawRecord.size) :=
  (bytes.take (payloadSize - offset)).zipIdx.foldlM (fun memory byte => do
    let inPayload ← wordSum offset byte.2
    memory.store (payloadOffset + inPayload) [byte.1]) memory

/-- A fill in single stores. -/
def fillEach (kind : Kind) (parts : List (Nat × List UInt8)) (memory : Block RawRecord.size) :
    Except Misstep (Block RawRecord.size) := do
  let erased ← eraseEach memory
  let marked ← erased.store 0 (LittleEndian.ofWord kind.code)
  parts.foldlM (fun memory part => storeEach part.1 part.2 memory) marked

theorem eraseEach_eq (slot : Slot) : eraseEach slot.memory = .ok slot.erase.memory := by
  have hword : ∀ i ∈ List.range wordCount, ∀ memory : Block RawRecord.size,
      memory.store (4 * i) (LittleEndian.ofWord 0) =
        .ok (memory.write (4 * i) (LittleEndian.ofWord 0)) := by
    intro i hi memory
    have hcount : 4 * wordCount = RawRecord.size := rfl
    have hlt := List.mem_range.1 hi
    refine Block.store_eq_ok ?_ memory
    rw [LittleEndian.length_ofWord]
    omega
  rw [eraseEach, foldlM_eq_ok hword, erase]

/-- The bytes of a part all lie in the payload once it is cut off there, or there are none. -/
theorem storeEach_eq (offset : Nat) (bytes : List UInt8) (memory : Block RawRecord.size) :
    storeEach offset bytes memory =
      .ok (memory.write (payloadOffset + offset) (bytes.take (payloadSize - offset))) := by
  have hlength : (bytes.take (payloadSize - offset)).length ≤ payloadSize - offset := by
    rw [List.length_take]
    exact Nat.min_le_left _ _
  have hbyte : ∀ byte ∈ (bytes.take (payloadSize - offset)).zipIdx, ∀ memory : Block RawRecord.size,
      (do
        let inPayload ← wordSum offset byte.2
        memory.store (payloadOffset + inPayload) [byte.1]) =
        .ok (memory.write (payloadOffset + offset + byte.2) [byte.1]) := by
    intro byte hmem memory
    have hlt := List.snd_lt_of_mem_zipIdx hmem
    have hsize : RawRecord.size = payloadOffset + payloadSize := rfl
    have hpayload : payloadSize < UInt64.size := by decide
    have hsum : wordSum offset byte.2 = .ok (offset + byte.2) := if_pos (by omega)
    have hwithin : payloadOffset + (offset + byte.2) + [byte.1].length ≤ RawRecord.size := by
      rw [List.length_singleton]
      omega
    rw [hsum, Nat.add_assoc]
    exact Block.store_eq_ok hwithin memory
  rw [storeEach, foldlM_eq_ok hbyte, Block.foldl_write_bytes]
  rfl

/-- What the parts of a fill do to the bytes of the slot. -/
theorem memory_foldl_storePart (parts : List (Nat × List UInt8)) (slot : Slot) :
    (parts.foldl (fun slot part => slot.storePart part.1 part.2) slot).memory =
      parts.foldl (fun memory part =>
        memory.write (payloadOffset + part.1) (part.2.take (payloadSize - part.1))) slot.memory := by
  induction parts generalizing slot with
  | nil => rfl
  | cons part parts ih => rw [List.foldl_cons, ih, storePart, List.foldl_cons]

/-- **The single stores all lie in the slot, and together they are the fill.** -/
theorem fillEach_eq (kind : Kind) (parts : List (Nat × List UInt8)) (slot : Slot) :
    fillEach kind parts slot.memory = .ok (slot.fill kind parts).memory := by
  have hkind : slot.erase.memory.store 0 (LittleEndian.ofWord kind.code) =
      .ok (slot.erase.mark kind).memory :=
    Block.store_eq_ok (by rw [LittleEndian.length_ofWord]; decide) _
  have hpart : ∀ part ∈ parts, ∀ memory : Block RawRecord.size, storeEach part.1 part.2 memory =
      .ok (memory.write (payloadOffset + part.1) (part.2.take (payloadSize - part.1))) :=
    fun part _ memory => storeEach_eq part.1 part.2 memory
  rw [fill, memory_foldl_storePart, ← foldlM_eq_ok hpart, fillEach, eraseEach_eq]
  dsimp only [bind, Except.bind]
  rw [hkind]

theorem payload_fill (kind : Kind) (parts : List (Nat × List UInt8)) (slot : Slot) :
    (slot.fill kind parts).raw.payload.toList = (List.range payloadSize).map (lastGiven parts) := by
  apply List.ext_getElem?
  intro i
  rw [raw_fill, List.getElem?_map]
  by_cases hi : i < payloadSize
  · rw [Block.getElem?_foldl_write parts _ hi, Block.getElem?_zero, if_pos hi,
      List.getElem?_range hi, Option.map_some, lastGiven]
    cases parts.reverse.findSome? (Block.given i) <;> rfl
  · rw [List.getElem?_eq_none, List.getElem?_eq_none]
    · rfl
    · rw [List.length_range]
      omega
    · rw [Block.length_toList]
      omega

/-- **A fill leaves the kind and the parts, and nothing else.** Each of its stores lies in the slot, and
no offset of a byte that it stores is too large for a word, wherever its parts begin and however long they
are. Afterwards the slot holds the code of the kind, and each byte of the payload is the one that the last
part has for it that covers it, or zero where none does; what the slot held before has no say. -/
theorem fill_stores (kind : Kind) (parts : List (Nat × List UInt8)) (slot : Slot) :
    fillEach kind parts slot.memory = .ok (slot.fill kind parts).memory ∧
    (slot.fill kind parts).rawKind = kind.code ∧
    (slot.fill kind parts).memory.toList =
      LittleEndian.ofWord kind.code ++ (List.range payloadSize).map (lastGiven parts) := by
  have hkind : (slot.fill kind parts).raw.kind = kind.code := by rw [raw_fill]
  refine ⟨fillEach_eq kind parts slot, hkind, ?_⟩
  rw [← ofRaw_raw (slot.fill kind parts), toList_ofRaw, RawRecord.bytes, hkind, payload_fill]

-- two parts that overlap, one that is cut off at the end of the payload, and one that begins after it
example : (List.range payloadSize).map
    (lastGiven [(0, [1, 2, 3]), (1, [9]), (130, [7, 7, 7]), (UInt64.size - 1, [5])]) =
      [1, 9, 3] ++ List.replicate 127 0 ++ [7, 7] := by
  decide +kernel

end Firmware.Crash.Slot
