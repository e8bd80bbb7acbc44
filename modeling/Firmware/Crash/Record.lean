import Firmware.Crash.Kind
import Firmware.Text.Bounded

/-!
# Crash records

What is kept about a crash, and its image in memory: a kind and a payload of fixed size, of which
each kind uses a part of its own.

* `decode?_isSome_iff`: an image holds a record exactly if its kind marks one; the payload has no say.
* `kind_of_decode?`: the record of an image has the kind that the image is marked with.
-/

namespace Firmware.Crash

open Memory Text

/-- The registers that the processor stacks on entry into a fault handler, in stack order. -/
structure StackedFrame where
  r0 : UInt32
  r1 : UInt32
  r2 : UInt32
  r3 : UInt32
  r12 : UInt32
  lr : UInt32
  returnAddress : UInt32
  xpsr : UInt32
deriving DecidableEq

/-- The fault status and address registers. -/
structure FaultStatus where
  cfsr : UInt32
  hfsr : UInt32
  mmfar : UInt32
  bfar : UInt32
  afsr : UInt32
deriving DecidableEq

/-- The status where no register could be read. -/
def FaultStatus.zero : FaultStatus := ⟨0, 0, 0, 0, 0⟩

/-- All that is kept about a hardware fault. -/
structure FaultDump extends StackedFrame, FaultStatus
deriving DecidableEq

namespace FaultDump

/-- The dump of a stacked frame and a fault status. -/
def ofParts (frame : StackedFrame) (status : FaultStatus) : FaultDump := ⟨frame, status⟩

/-- The registers in the order in which they are stored. -/
def words (dump : FaultDump) : List UInt32 :=
  [dump.r0, dump.r1, dump.r2, dump.r3, dump.r12, dump.lr, dump.returnAddress, dump.xpsr,
    dump.cfsr, dump.hfsr, dump.mmfar, dump.bfar, dump.afsr]

/-- The dump whose registers are given by their place in that order. -/
def ofRegister (register : Nat → UInt32) : FaultDump where
  r0 := register 0
  r1 := register 1
  r2 := register 2
  r3 := register 3
  r12 := register 4
  lr := register 5
  returnAddress := register 6
  xpsr := register 7
  cfsr := register 8
  hfsr := register 9
  mmfar := register 10
  bfar := register 11
  afsr := register 12

/-- The bytes of the registers. -/
def bytes (dump : FaultDump) : List UInt8 := dump.words.flatMap LittleEndian.ofWord

end FaultDump

/-- The number of bytes of a file name. -/
def fileNameCapacity : Nat := 127

/-- The number of bytes of a task name. -/
def taskNameCapacity : Nat := 63

/-- The name of a source file. -/
abbrev FileName := Bounded fileNameCapacity

/-- The name of a task. -/
abbrev TaskName := Bounded taskNameCapacity

/-- A crash with all that is kept about it. -/
inductive Record where
  | assert (file : FileName) (line : UInt32)
  | railAssert (code : UInt32)
  | stackOverflow (task : TaskName)
  | stackProtector (returnAddress : UInt32)
  | fault (dump : FaultDump)
  | runtimeError (code : UInt32)
  | exit (status : Int32)
deriving DecidableEq

namespace Record

/-- The record of an assertion that failed in a file. -/
def ofAssert (file : List Char) (line : UInt32) : Record := .assert (Bounded.ofText file) line

/-- The record of a task that overran its stack. -/
def ofStackOverflow (task : List Char) : Record := .stackOverflow (Bounded.ofText task)

/-- The kind of a record. -/
def kind : Record → Kind
  | assert .. => .assert
  | railAssert _ => .railAssert
  | stackOverflow _ => .stackOverflow
  | stackProtector _ => .stackProtector
  | fault _ => .fault
  | runtimeError _ => .runtimeError
  | exit _ => .exit

theorem kind_ne_noCrash (record : Record) : record.kind ≠ .noCrash := by
  cases record <;> simp [kind]

end Record

/-- The number of payload bytes: enough for the largest kind of record. -/
def payloadSize : Nat := 132

/-- Where the line of a failed assertion stands in the payload, after the file name. -/
def lineOffset : Nat := 128

/-- The image of a record in memory; any bytes are one. -/
structure RawRecord where
  kind : UInt32
  payload : Block payloadSize
deriving DecidableEq

namespace RawRecord

/-- The number of bytes of an image. -/
def size : Nat := 4 + payloadSize

/-- The address of an image is a multiple of this. -/
def alignment : Nat := 4

/-- The image of zeros. -/
def zero : RawRecord := ⟨0, Block.zero⟩

/-- The bytes of an image: the kind, then the payload. -/
def bytes (raw : RawRecord) : List UInt8 := LittleEndian.ofWord raw.kind ++ raw.payload.toList

/-- The record that an image of a given kind holds. Names are taken over with whatever follows their
terminator, and are terminated where they were not. -/
def decodeAs (payload : Block payloadSize) : Kind → Option Record
  | .noCrash => none
  | .assert => some (.assert (Bounded.ofRaw (payload.window 0)) (payload.word lineOffset))
  | .railAssert => some (.railAssert (payload.word 0))
  | .stackOverflow => some (.stackOverflow (Bounded.ofRaw (payload.window 0)))
  | .stackProtector => some (.stackProtector (payload.word 0))
  | .fault => some (.fault (FaultDump.ofRegister fun i => payload.word (4 * i)))
  | .runtimeError => some (.runtimeError (payload.word 0))
  | .exit => some (.exit (payload.word 0).toInt32)

/-- The record that an image holds, if its kind marks one. -/
def decode? (raw : RawRecord) : Option Record :=
  (Kind.ofStored? raw.kind).bind (decodeAs raw.payload)

@[simp] theorem length_bytes (raw : RawRecord) : raw.bytes.length = size := by
  simp [bytes, size, raw.payload.length_toList]

theorem kind_of_decodeAs {payload : Block payloadSize} {kind : Kind} {record : Record}
    (h : decodeAs payload kind = some record) : record.kind = kind := by
  cases kind <;> simp only [decodeAs, Option.some.injEq, reduceCtorEq] at h <;> subst h <;> rfl

theorem kind_of_decode? {raw : RawRecord} {record : Record} (h : raw.decode? = some record) :
    Kind.ofStored? raw.kind = some record.kind := by
  obtain ⟨kind, hkind, hrecord⟩ := Option.bind_eq_some_iff.1 h
  rw [hkind, kind_of_decodeAs hrecord]

theorem ofStored?_ne_noCrash (code : UInt32) : Kind.ofStored? code ≠ some .noCrash := by
  intro h
  have hsome := (Kind.ofStored?_isSome_iff code).1 (by rw [h]; rfl)
  have hcode : ∀ n : Nat, 1 ≤ n → n < 8 → Kind.ofInt? n ≠ some .noCrash := by
    intro n h1 h8
    have hn : n = 1 ∨ n = 2 ∨ n = 3 ∨ n = 4 ∨ n = 5 ∨ n = 6 ∨ n = 7 := by omega
    rcases hn with rfl | rfl | rfl | rfl | rfl | rfl | rfl <;> decide
  rw [Kind.ofStored?] at h
  split at h
  · simp at h
  · exact hcode _ hsome.1 hsome.2 h

/-- The kind alone decides whether an image holds a record. -/
theorem decode?_isSome_iff (raw : RawRecord) :
    raw.decode?.isSome ↔ (Kind.ofStored? raw.kind).isSome := by
  rw [decode?]
  cases hkind : Kind.ofStored? raw.kind with
  | none => simp
  | some kind =>
    -- every kind that marks a record can be decoded
    have hcrash : kind ≠ .noCrash := fun h => ofStored?_ne_noCrash raw.kind (h ▸ hkind)
    cases kind <;> simp_all [decodeAs]

end RawRecord

end Firmware.Crash
