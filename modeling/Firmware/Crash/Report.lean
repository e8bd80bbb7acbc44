import Firmware.Crash.Record
import Firmware.Text.Clipped
import Firmware.Text.Numeral

/-!
# Crash reports

The text that tells a user what crashed. It is written in pieces into limited space, so that a report
has a fixed size in memory.

* `kind_ofRecord`: a report has the kind of its record.
* `size_text_le`: the text fits the space that is kept for it.
-/

namespace Firmware.Crash

open Memory Text

/-- The number of bytes kept for the text of a report. -/
def reportCapacity : Nat := 300

/-- What is shown where no crash was found. -/
def noCrashText : String := "No previous crash info"

/-- A register with its label and the mark of a hexadecimal number. -/
def register (label : String) (word : UInt32) : List (List Char) :=
  [label.toList, "0x".toList, Numeral.hexWord word]

/-- The pieces of the text of a fault: four lines of registers. -/
def FaultDump.pieces (dump : FaultDump) : List (List Char) :=
  register "[FAULT CFSR: " dump.cfsr ++ ["\r\n".toList] ++
  register "R0:   " dump.r0 ++ register ", R1:    " dump.r1 ++
  register ", R2:   " dump.r2 ++ register ", R3:   " dump.r3 ++ ["\r\n".toList] ++
  register "R12:  " dump.r12 ++ register ", LR:    " dump.lr ++
  register ", RET:  " dump.returnAddress ++ register ", XPSR: " dump.xpsr ++ ["\r\n".toList] ++
  register "HFSR: " dump.hfsr ++ register ", MMFAR: " dump.mmfar ++
  register ", BFAR: " dump.bfar ++ register ", AFSR: " dump.afsr ++ ["]\r\n".toList]

namespace Record

/-- The pieces of the text of a record, in the order in which they are written. -/
def pieces : Record → List (List Char)
  | assert file line =>
    ["[ASSERT in ".toList, file.chars, " on line ".toList, Numeral.decimal line.toNat, "]\r\n".toList]
  | railAssert code => ["[RAIL ASSERT ".toList, Numeral.decimal code.toNat, "]\r\n".toList]
  | stackOverflow task =>
    ["[STACK OVERFLOW failure in task \"".toList, task.chars, "\"]\r\n".toList]
  | stackProtector address =>
    register "[STACK PROTECTOR failure in " address ++ ["]\r\n".toList]
  | fault dump => dump.pieces
  | runtimeError code => register "[C-RUN error " code ++ ["]\r\n".toList]
  | exit status => ["[EXIT status ".toList, Numeral.signedDecimal status.toInt, "]\r\n".toList]

/-- The whole text of a record. -/
def display (record : Record) : List Char := record.pieces.flatten

end Record

/-- The text of a crash, cut to the space there is, with the kind of the crash. -/
structure Report where
  kind : Kind
  text : List Char
deriving DecidableEq

namespace Report

/-- The report of a record. -/
def ofRecord (record : Record) : Report :=
  ⟨record.kind, Clipped.write reportCapacity record.pieces⟩

theorem kind_ofRecord (record : Record) : (ofRecord record).kind = record.kind := rfl

/-- The text of a report fits the space that is kept for it. -/
theorem size_text_le (record : Record) : Utf8.size (ofRecord record).text ≤ reportCapacity :=
  Clipped.size_write_le _ _

end Report

end Firmware.Crash
