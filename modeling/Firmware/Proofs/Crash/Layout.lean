import Firmware.Proofs.Crash.Machine

/-!
# How a crash lies in the slot

Each kind of crash has its fields at the front of the payload: a name in a field of its own, then
words, or the registers of a fault, each in its place. A writer leaves these fields and zeros, and nothing
of what the slot held before.

* `registers_eq_zipIdx`: the registers of a fault lie word by word, in the order in which they are
  stored.
* `raw_write`: the image that a record leaves.
* `apply_eq_write`: every writer stores a record.
* `layout_of_stored`: every byte of the slot after a writer, whatever came before it.
-/

namespace Firmware.Crash

open Memory Text

/-- A name as it lies in memory: cut at its first zero byte or at the capacity of its field, with
zeros after it to the end of the field. -/
def nameField (capacity : Nat) (name : List UInt8) : List UInt8 :=
  zeroFilled (capacity + 1) (CString.untilZero capacity name)

/-- Where each register of a fault lies in the payload. -/
def FaultDump.registers (dump : FaultDump) : List (Nat × UInt32) :=
  [(0, dump.r0), (4, dump.r1), (8, dump.r2), (12, dump.r3), (16, dump.r12), (20, dump.lr),
    (24, dump.returnAddress), (28, dump.xpsr), (32, dump.cfsr), (36, dump.hfsr), (40, dump.mmfar),
    (44, dump.bfar), (48, dump.afsr)]

/-- The registers of a fault as they lie in memory, one after the other. -/
def registerField (dump : FaultDump) : List UInt8 :=
  dump.registers.flatMap fun (_, register) => LittleEndian.ofWord register

/-- The fields of a record, in the order in which they lie in the payload. -/
def Record.fields : Record → List UInt8
  | .assert file line => nameField fileNameCapacity file.bytes ++ LittleEndian.ofWord line
  | .railAssert code => LittleEndian.ofWord code
  | .stackOverflow task => nameField taskNameCapacity task.bytes
  | .stackProtector address => LittleEndian.ofWord address
  | .fault dump => registerField dump
  | .runtimeError code => LittleEndian.ofWord code
  | .exit status => LittleEndian.ofWord status.toUInt32

/-- The kind and the fields that a writer stores. A change that stores no crash is no writer. -/
def Slot.Write.stored? : Slot.Write → Option (Kind × List UInt8)
  | .assert file line =>
    some (.assert, nameField fileNameCapacity file ++ LittleEndian.ofWord line)
  | .railAssert code => some (.railAssert, LittleEndian.ofWord code)
  | .stackOverflow task => some (.stackOverflow, nameField taskNameCapacity task)
  | .stackProtector address => some (.stackProtector, LittleEndian.ofWord address)
  | .fault dump => some (.fault, registerField dump)
  | .runtimeError code => some (.runtimeError, LittleEndian.ofWord code)
  | .exit status => some (.exit, LittleEndian.ofWord status.toUInt32)
  | .record stored => some (stored.kind, stored.fields)
  | .overwrite _ | .clear => none

/-! ## Registers in their places -/

/-- **The registers lie word by word**, in the order in which they are stored. -/
theorem FaultDump.registers_eq_zipIdx (dump : FaultDump) :
    dump.registers = dump.words.zipIdx.map fun (word, i) => (4 * i, word) := rfl

theorem registerField_eq_bytes (dump : FaultDump) : registerField dump = dump.bytes := rfl

/-- Each register is found at its place. -/
theorem slice_registerField {dump : FaultDump} {offset : Nat} {register : UInt32}
    (h : (offset, register) ∈ dump.registers) :
    ((registerField dump).drop offset).take 4 = LittleEndian.ofWord register := by
  rw [FaultDump.registers_eq_zipIdx] at h
  obtain ⟨⟨word, i⟩, hmem, heq⟩ := List.mem_map.1 h
  cases heq
  rw [registerField_eq_bytes]
  exact LittleEndian.slice_flatMap_ofWord dump.words (List.mem_zipIdx_iff_getElem?.1 hmem)

theorem length_registerField (dump : FaultDump) : (registerField dump).length = 52 := by
  rw [registerField_eq_bytes, FaultDump.bytes, LittleEndian.length_flatMap_ofWord]
  rfl

/-! ## Names in their fields -/

theorem length_nameField (capacity : Nat) (name : List UInt8) :
    (nameField capacity name).length = capacity + 1 := by
  have hle := CString.length_untilZero_le capacity name
  exact length_zeroFilled (by omega)

/-- The last byte of the field is the terminator at the latest. -/
theorem getElem?_nameField_capacity (capacity : Nat) (name : List UInt8) :
    (nameField capacity name)[capacity]? = some 0 := by
  have hle := CString.length_untilZero_le capacity name
  rw [nameField, getElem?_zeroFilled (by omega), if_pos (by omega), List.getElem?_eq_none hle]
  rfl

theorem nameField_untilZero (capacity : Nat) (name : List UInt8) :
    nameField capacity (CString.untilZero capacity name) = nameField capacity name := by
  rw [nameField, CString.untilZero_untilZero]
  rfl

theorem nameField_bytes (capacity : Nat) (name : List UInt8) :
    nameField capacity (Bounded.ofTerminated name : Bounded capacity).bytes =
      nameField capacity name := by
  rw [Bounded.bytes_ofTerminated, nameField_untilZero]

namespace Record

theorem length_fields_le (record : Record) : record.fields.length ≤ payloadSize := by
  cases record with
  | assert file line =>
    rw [fields, List.length_append, length_nameField, LittleEndian.length_ofWord]
    decide
  | stackOverflow task =>
    rw [fields, length_nameField]
    decide
  | fault dump =>
    rw [fields, length_registerField]
    decide
  | railAssert code | stackProtector code | runtimeError code | exit code =>
    rw [fields, LittleEndian.length_ofWord]
    decide

theorem kind_trimmed (record : Record) : record.trimmed.kind = record.kind := by
  cases record <;> rfl

theorem fields_trimmed (record : Record) : record.trimmed.fields = record.fields := by
  cases record with
  | assert file line => rw [trimmed, fields, nameField_bytes, fields]
  | stackOverflow task => rw [trimmed, fields, nameField_bytes, fields]
  | _ => rfl

end Record

namespace Slot

variable {slot : Slot} {w : Write} {kind : Kind} {fields : List UInt8}

/-! ## What each writer leaves -/

theorem raw_writeAssert (file : List UInt8) (line : UInt32) (slot : Slot) :
    (slot.writeAssert file line).raw = ⟨Kind.assert.code,
      Block.fit 0 (nameField fileNameCapacity file ++ LittleEndian.ofWord line)⟩ := by
  have hle := CString.length_untilZero_le fileNameCapacity file
  have hline : lineOffset = fileNameCapacity + 1 := rfl
  rw [writeAssert, raw_fill]
  simp only [List.foldl_cons, List.foldl_nil]
  rw [Block.zero_write, Block.fit_write (by omega), nameField, hline]

theorem raw_writeStackOverflow (task : List UInt8) (slot : Slot) :
    (slot.writeStackOverflow task).raw =
      ⟨Kind.stackOverflow.code, Block.fit 0 (nameField taskNameCapacity task)⟩ := by
  have hle := CString.length_untilZero_le taskNameCapacity task
  rw [writeStackOverflow, raw_fill]
  simp only [List.foldl_cons, List.foldl_nil]
  rw [Block.zero_write]
  congr 1
  -- the zeros of the field go on in those after it
  apply Block.ext
  apply List.ext_getElem?
  intro i
  rw [Block.getElem?_fit, Block.getElem?_fit, nameField, getElem?_zeroFilled (by omega)]
  by_cases hi : i < taskNameCapacity + 1
  · rw [if_pos hi, Option.getD_some]
  · rw [if_neg hi, List.getElem?_eq_none (by omega)]

theorem raw_writeWord (kind : Kind) (word : UInt32) (slot : Slot) :
    (slot.writeWord kind word).raw = ⟨kind.code, Block.fit 0 (LittleEndian.ofWord word)⟩ := by
  rw [writeWord, raw_fill, List.foldl_cons, List.foldl_nil, Block.zero_write]

/-- **The image that a record leaves**: its kind, and its fields with zeros after them. -/
theorem raw_write (record : Record) (slot : Slot) :
    (slot.write record).raw = ⟨record.kind.code, Block.fit 0 record.fields⟩ := by
  cases record with
  | assert file line => exact raw_writeAssert file.bytes line slot
  | railAssert code => exact raw_writeWord .railAssert code slot
  | stackOverflow task => exact raw_writeStackOverflow task.bytes slot
  | stackProtector address => exact raw_writeWord .stackProtector address slot
  | fault dump =>
    rw [write, writeFault, raw_fill, List.foldl_cons, List.foldl_nil, Block.zero_write,
      Record.fields, registerField_eq_bytes]
    rfl
  | runtimeError code => exact raw_writeWord .runtimeError code slot
  | exit status => exact raw_writeWord .exit status.toUInt32 slot

theorem memory_write (record : Record) (slot : Slot) :
    (slot.write record).memory.toList =
      LittleEndian.ofWord record.kind.code ++ zeroFilled payloadSize record.fields := by
  rw [← ofRaw_raw (slot.write record), toList_ofRaw, RawRecord.bytes, raw_write,
    Block.toList_fit_zero record.length_fields_le]

/-- Two records with the same kind and fields leave the same slot. -/
theorem write_congr {record record' : Record} (hkind : record.kind = record'.kind)
    (hfields : record.fields = record'.fields) (slot slot' : Slot) :
    slot.write record = slot'.write record' := by
  rw [← ofRaw_raw (slot.write record), ← ofRaw_raw (slot'.write record'), raw_write, raw_write,
    hkind, hfields]

/-- A name that was cut before is stored as it is. -/
theorem writeAssert_untilZero (file : List UInt8) (line : UInt32) (slot : Slot) :
    slot.writeAssert (CString.untilZero fileNameCapacity file) line = slot.writeAssert file line := by
  rw [writeAssert, CString.untilZero_untilZero, writeAssert]

theorem writeStackOverflow_untilZero (task : List UInt8) (slot : Slot) :
    slot.writeStackOverflow (CString.untilZero taskNameCapacity task) =
      slot.writeStackOverflow task := by
  rw [writeStackOverflow, CString.untilZero_untilZero, writeStackOverflow]

/-- **Every writer stores a record**, the one that is read back. -/
theorem apply_eq_write (h : w.stored? = some (kind, fields)) :
    ∃ record : Record, w.record? = some record ∧ record.kind = kind ∧ record.fields = fields ∧
      ∀ slot : Slot, slot.apply w = slot.write record := by
  cases w with
  | overwrite raw => cases h
  | clear => cases h
  | assert file line =>
    cases h
    refine ⟨.assert (Bounded.ofTerminated file) line, rfl, rfl, ?_, fun slot => ?_⟩
    · rw [Record.fields, nameField_bytes]
    · rw [apply, write, Bounded.bytes_ofTerminated, writeAssert_untilZero]
  | stackOverflow task =>
    cases h
    refine ⟨.stackOverflow (Bounded.ofTerminated task), rfl, rfl, ?_, fun slot => ?_⟩
    · rw [Record.fields, nameField_bytes]
    · rw [apply, write, Bounded.bytes_ofTerminated, writeStackOverflow_untilZero]
  | record stored =>
    cases h
    refine ⟨stored.trimmed, rfl, stored.kind_trimmed, stored.fields_trimmed, fun slot => ?_⟩
    exact write_congr stored.kind_trimmed.symm stored.fields_trimmed.symm slot slot
  | railAssert code | stackProtector code | fault code | runtimeError code | exit code =>
    cases h
    exact ⟨_, rfl, rfl, rfl, fun slot => rfl⟩

theorem getElem?_payload_write {record : Record} {i : Nat} {b : UInt8}
    (hi : record.fields[i]? = some b) (slot : Slot) :
    (slot.write record).raw.payload.toList[i]? = some b := by
  have hlt := (List.getElem?_eq_some_iff.1 hi).1
  have hle := record.length_fields_le
  rw [raw_write, Block.getElem?_fit, if_pos (by omega), hi, Option.getD_some]

/-- Bytes of the fields are found at their offsets in the payload. -/
theorem slice_payload_write {record : Record} {offset count : Nat}
    (h : offset + count ≤ record.fields.length) (slot : Slot) :
    (slot.write record).raw.payload.slice offset count = (record.fields.drop offset).take count := by
  have hle := record.length_fields_le
  have hslice : ((Block.zero : Block payloadSize).write 0 record.fields).slice (0 + offset) count =
      (record.fields.drop offset).take count := Block.slice_write_within (by omega) h
  rw [raw_write, ← Block.zero_write, ← hslice, Nat.zero_add]

/-- The slot after a history that ends in a writer. -/
theorem slot_after_capture (calls : List Handler.Call) (writes : List Write) (handler : Handler) :
    ∃ slot : Slot, (after Handler.call (calls ++ [.capture (writes ++ [w])]) handler).slot =
      slot.apply w := by
  refine ⟨writes.foldl (fun slot change => slot.apply change)
    (after Handler.call calls handler).slot, ?_⟩
  rw [after, List.foldl_append, List.foldl_cons, List.foldl_nil, Handler.call, Handler.capture,
    List.foldl_append, List.foldl_cons, List.foldl_nil]
  rfl

/-- **What a writer leaves depends on its arguments only**: its kind, its fields at the front of the
payload, and zeros in every other byte. So two histories that end in the same writer leave the same
bytes, whatever memory they began with; no name reaches into the line, the last byte of the field of a
name is zero, and each register of a fault has its own place. -/
theorem layout_of_stored (h : w.stored? = some (kind, fields)) :
    (∀ slot : Slot, (slot.apply w).memory.toList =
      LittleEndian.ofWord kind.code ++ zeroFilled payloadSize fields) ∧
    (∀ (calls calls' : List Handler.Call) (writes writes' : List Write) (handler handler' : Handler),
      (after Handler.call (calls ++ [.capture (writes ++ [w])]) handler).slot =
        (after Handler.call (calls' ++ [.capture (writes' ++ [w])]) handler').slot) ∧
    (∀ (slot : Slot) file line, w.record? = some (.assert file line) →
      (slot.apply w).raw.payload.toList[127]? = some 0 ∧
        (slot.apply w).raw.payload.slice 128 4 = LittleEndian.ofWord line) ∧
    (∀ (slot : Slot) task, w.record? = some (.stackOverflow task) →
      (slot.apply w).raw.payload.toList[63]? = some 0) ∧
    ∀ (slot : Slot) dump, w.record? = some (.fault dump) →
      ∀ offset register, (offset, register) ∈ dump.registers →
        (slot.apply w).raw.payload.slice offset 4 = LittleEndian.ofWord register := by
  obtain ⟨record, hrecord, rfl, rfl, hwrite⟩ := apply_eq_write h
  refine ⟨fun slot => ?_, ?_, ?_, ?_, ?_⟩
  · rw [hwrite, memory_write]
  · intro calls calls' writes writes' handler handler'
    obtain ⟨slot, hslot⟩ := slot_after_capture (w := w) calls writes handler
    obtain ⟨slot', hslot'⟩ := slot_after_capture (w := w) calls' writes' handler'
    rw [hslot, hslot', hwrite, hwrite]
    exact write_congr rfl rfl slot slot'
  · intro slot file line hassert
    obtain rfl : record = .assert file line := Option.some.inj (hrecord.symm.trans hassert)
    have hname : (nameField fileNameCapacity file.bytes).length = 128 := length_nameField _ _
    have hline := LittleEndian.length_ofWord line
    rw [hwrite]
    constructor
    · refine getElem?_payload_write ?_ slot
      rw [Record.fields, List.getElem?_append_left (by omega)]
      exact getElem?_nameField_capacity _ _
    · rw [slice_payload_write, Record.fields, List.drop_left' hname,
        List.take_of_length_le (Nat.le_of_eq hline)]
      rw [Record.fields, List.length_append]
      omega
  · intro slot task htask
    obtain rfl : record = .stackOverflow task := Option.some.inj (hrecord.symm.trans htask)
    rw [hwrite]
    refine getElem?_payload_write ?_ slot
    exact getElem?_nameField_capacity _ _
  · intro slot dump hfault offset register hmem
    obtain rfl : record = .fault dump := Option.some.inj (hrecord.symm.trans hfault)
    have hslice := slice_registerField hmem
    have hlength : (((registerField dump).drop offset).take 4).length = 4 := by
      rw [hslice]
      exact LittleEndian.length_ofWord register
    rw [List.length_take, List.length_drop] at hlength
    rw [hwrite, slice_payload_write]
    · exact hslice
    · rw [Record.fields]
      omega

/-- Over memory that holds garbage: a name without any terminator, longer than its field, and a fault. -/
theorem layout_over_garbage :
    (Write.assert (List.replicate 200 0x78) 77).stored? =
        some (.assert, List.replicate 127 0x78 ++ [0, 77, 0, 0, 0]) ∧
      ((ofRaw ⟨0xdeadbeef, Block.fit 0xa5 []⟩).apply
        (.assert (List.replicate 200 0x78) 77)).memory.toList =
          [1, 0, 0, 0] ++ List.replicate 127 0x78 ++ [0, 77, 0, 0, 0] ∧
      ((ofRaw ⟨0xdeadbeef, Block.fit 0xa5 []⟩).apply (.fault
        ⟨⟨0x03020100, 1, 2, 3, 12, 0xfffffff9, 0x08001234, 0x61000003⟩,
          ⟨0x8200, 0x40000000, 0x34, 0x20008000, 0xaf⟩⟩)).memory.toList =
        [5, 0, 0, 0] ++ [0, 1, 2, 3] ++ [1, 0, 0, 0] ++ [2, 0, 0, 0] ++ [3, 0, 0, 0] ++
          [12, 0, 0, 0] ++ [0xf9, 0xff, 0xff, 0xff] ++ [0x34, 0x12, 0, 8] ++ [3, 0, 0, 0x61] ++
          [0, 0x82, 0, 0] ++ [0, 0, 0, 0x40] ++ [0x34, 0, 0, 0] ++ [0, 0x80, 0, 0x20] ++
          [0xaf, 0, 0, 0] ++ List.replicate 80 0 := by
  have hstored : (Write.assert (List.replicate 200 0x78) 77).stored? =
      some (.assert, List.replicate 127 0x78 ++ [0, 77, 0, 0, 0]) := by decide +kernel
  exact ⟨hstored, ((layout_of_stored hstored).1 _).trans (by decide +kernel),
    ((layout_of_stored rfl).1 _).trans (by decide +kernel)⟩

end Slot

end Firmware.Crash
