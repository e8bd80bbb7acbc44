import Firmware.Crash.Report

/-!
# The slot that outlives a reset

Memory that start-up leaves alone, so that what a crash wrote is still there afterwards. It may hold
anything. A writer erases the slot word by word and then stores its parts in place; a reader trusts
only the kind, and a boot keeps the record only after a reset that the program asked for.

* `raw_ofRaw`: an image that is stored is found again.
* `recover_none_cleared`: a boot that keeps no record leaves zeros.
* `takeReport_none`: where there is no record to report, the memory is left alone.
-/

namespace Firmware.Crash

open Memory Text

/-- Why the processor last came out of reset. -/
inductive ResetReason where
  | powerOn
  | pin
  | brownOut
  /-- Asked for by the program, as a crash handler does. -/
  | system
  | watchdog
  | lockup
  /-- A cause that could not be told, as the register gave it. -/
  | other (register : UInt32)
deriving DecidableEq

/-- Whether the program itself asked for the reset. -/
def ResetReason.isSoftwareRequest (reason : ResetReason) : Bool := reason == .system

/-- The memory kept for one record. -/
structure Slot where
  memory : Block RawRecord.size
deriving DecidableEq

namespace Slot

/-- Where the payload begins, after the kind. -/
def payloadOffset : Nat := 4

/-- The number of words of a slot. -/
def wordCount : Nat := RawRecord.size / 4

/-- The slot that holds an image. -/
def ofRaw (raw : RawRecord) : Slot := ⟨Block.fit 0 raw.bytes⟩

/-- The slot of zeros. -/
def zero : Slot := ofRaw RawRecord.zero

/-- The kind that the slot is marked with, valid or not. -/
def rawKind (slot : Slot) : UInt32 := slot.memory.word 0

/-- The image in the slot. -/
def raw (slot : Slot) : RawRecord := ⟨slot.rawKind, slot.memory.window payloadOffset⟩

/-- Stores zeros, one word at a time. -/
def erase (slot : Slot) : Slot :=
  ⟨(List.range wordCount).foldl
    (fun memory i => memory.write (4 * i) (LittleEndian.ofWord 0)) slot.memory⟩

/-- Stores the kind. -/
def mark (kind : Kind) (slot : Slot) : Slot :=
  ⟨slot.memory.write 0 (LittleEndian.ofWord kind.code)⟩

/-- Stores bytes in the payload; what would fall past its end is dropped. -/
def storePart (offset : Nat) (bytes : List UInt8) (slot : Slot) : Slot :=
  ⟨slot.memory.write (payloadOffset + offset) (bytes.take (payloadSize - offset))⟩

/-- Erases the slot, marks it with a kind and stores each part at its offset in the payload. -/
def fill (kind : Kind) (parts : List (Nat × List UInt8)) (slot : Slot) : Slot :=
  parts.foldl (fun slot part => slot.storePart part.1 part.2) (slot.erase.mark kind)

/-- Stores a failed assertion. -/
def writeAssert (file : List UInt8) (line : UInt32) (slot : Slot) : Slot :=
  slot.fill .assert
    [(0, CString.untilZero fileNameCapacity file), (lineOffset, LittleEndian.ofWord line)]

/-- Stores a stack overflow. -/
def writeStackOverflow (task : List UInt8) (slot : Slot) : Slot :=
  slot.fill .stackOverflow [(0, CString.untilZero taskNameCapacity task)]

/-- Stores a hardware fault. -/
def writeFault (dump : FaultDump) (slot : Slot) : Slot := slot.fill .fault [(0, dump.bytes)]

/-- Stores a crash of which one word is kept. -/
def writeWord (kind : Kind) (word : UInt32) (slot : Slot) : Slot :=
  slot.fill kind [(0, LittleEndian.ofWord word)]

/-- Stores a record; of a name only the bytes before its terminator are stored. -/
def write (record : Record) (slot : Slot) : Slot :=
  match record with
  | .assert file line => slot.writeAssert file.bytes line
  | .railAssert code => slot.writeWord .railAssert code
  | .stackOverflow task => slot.writeStackOverflow task.bytes
  | .stackProtector address => slot.writeWord .stackProtector address
  | .fault dump => slot.writeFault dump
  | .runtimeError code => slot.writeWord .runtimeError code
  | .exit status => slot.writeWord .exit status.toUInt32

/-- The record in the slot, if there is one. -/
def read? (slot : Slot) : Option Record := slot.raw.decode?

/-- Decides at boot whether the record is kept, and clears the slot if it is not. Gives the kind of
the record kept. -/
def recover (reason : ResetReason) (slot : Slot) : Option Kind × Slot :=
  let kept := if reason.isSoftwareRequest then slot.read?.map Record.kind else none
  (kept, if kept.isNone then zero else slot)

/-- Reports the record and clears the slot, so that no record is reported twice. -/
def takeReport (slot : Slot) : Option Report × Slot :=
  let left := if (Kind.ofStored? slot.rawKind).isSome then zero else slot
  (slot.read?.map Report.ofRecord, left)

/-- A change that a crash handler makes to the slot. -/
inductive Write where
  | assert (file : List UInt8) (line : UInt32)
  | railAssert (code : UInt32)
  | stackOverflow (task : List UInt8)
  | stackProtector (returnAddress : UInt32)
  | fault (dump : FaultDump)
  | runtimeError (code : UInt32)
  | exit (status : Int32)
  | record (record : Record)
  /-- The memory is overwritten with any image at all. -/
  | overwrite (raw : RawRecord)
  | clear

/-- Carries out a change. -/
def apply (change : Write) (slot : Slot) : Slot :=
  match change with
  | .assert file line => slot.writeAssert file line
  | .railAssert code => slot.writeWord .railAssert code
  | .stackOverflow task => slot.writeStackOverflow task
  | .stackProtector address => slot.writeWord .stackProtector address
  | .fault dump => slot.writeFault dump
  | .runtimeError code => slot.writeWord .runtimeError code
  | .exit status => slot.writeWord .exit status.toUInt32
  | .record record => slot.write record
  | .overwrite raw => ofRaw raw
  | .clear => zero

theorem toList_ofRaw (raw : RawRecord) : (ofRaw raw).memory.toList = raw.bytes :=
  Block.toList_fit 0 raw.length_bytes

@[simp] theorem raw_ofRaw (image : RawRecord) : (ofRaw image).raw = image := by
  have hlen := image.payload.length_toList
  have hkind : (ofRaw image).rawKind = image.kind := by
    simp [rawKind, Block.word, Block.slice, toList_ofRaw, RawRecord.bytes]
  have hpayload : (ofRaw image).memory.slice payloadOffset payloadSize = image.payload.toList := by
    simpa [Block.slice, toList_ofRaw, RawRecord.bytes, payloadOffset] using
      List.take_of_length_le (Nat.le_of_eq hlen)
  rw [raw, hkind]
  congr 1
  apply Block.ext
  rw [Block.window, hpayload, Block.toList_fit 0 hlen]

theorem recover_none_cleared {reason : ResetReason} {slot : Slot}
    (h : (slot.recover reason).1 = none) : (slot.recover reason).2 = zero := by
  simp only [recover] at h ⊢
  rw [h]
  rfl

theorem takeReport_none {slot : Slot} (h : slot.takeReport.1 = none) :
    slot.takeReport.2 = slot := by
  -- no report means no record, and a record is decided by the kind alone
  have hread : slot.raw.decode? = none := by simpa [takeReport, read?] using h
  have hkind : ¬ (Kind.ofStored? slot.rawKind).isSome := by
    rw [show slot.rawKind = slot.raw.kind from rfl, ← RawRecord.decode?_isSome_iff, hread]
    simp
  simp [takeReport, hkind]

end Slot

end Firmware.Crash
