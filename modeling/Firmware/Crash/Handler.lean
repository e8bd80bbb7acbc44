import Firmware.Crash.Slot

/-!
# The crash handler

Every interceptor stores its crash and asks for a reset. After the reset the boot decides whether the
record is kept, and the first check afterwards reports it. The last report stays at hand until the
next check.

* `reset_of_interceptor`: whatever ends in a reset leaves the last report as it was.
* `check_latches`: a check makes its result the last report, also where there is none.
-/

namespace Firmware.Crash

open Memory Text

/-- What the boot does to the register that tells the cause of the reset. -/
inductive CauseAccess where
  | read
  | clear
deriving DecidableEq

/-- The state of the handler: the slot, and the result of the last check. -/
structure Handler where
  slot : Slot
  last : Option Report
deriving DecidableEq

namespace Handler

/-- The state after the memory has been zeroed. -/
def start : Handler := ⟨Slot.zero, none⟩

/-- A call of the handler. -/
inductive Call where
  | assertFailed (file : List Char) (line : UInt32)
  | railAssert (code : UInt32)
  | stackOverflow (task : List Char)
  | stackProtector (returnAddress : UInt32)
  | runtimeError (code : UInt32)
  | abnormalExit (status : Int32)
  /-- A writer for the slot runs, then the system is reset. -/
  | capture (writes : List Slot.Write)
  /-- A hardware fault, with the fault status that was read; where none can be read it is zero. -/
  | hardFault (frame : StackedFrame) (status : FaultStatus := FaultStatus.zero)
  | systemReset
  | init (reason : ResetReason)
  | clear
  | read
  | check
  | last
  | lastText

/-- What a call comes to. -/
inductive Answer where
  /-- The system was reset. -/
  | reset
  | kept (kind : Option Kind) (accesses : List CauseAccess)
  | nothing
  | record (record : Option Record)
  | report (report : Option Report)
  | text (text : List Char)

/-- The text of the last report, or the text that says there is none. -/
def lastText (handler : Handler) : List Char :=
  match handler.last with
  | some report => report.text
  | none => noCrashText.toList

/-- Lets a list of writers change the slot. -/
def capture (writes : List Slot.Write) (handler : Handler) : Handler :=
  { handler with slot := writes.foldl (fun slot change => slot.apply change) handler.slot }

/-- Decides at boot whether the record is kept. The cause is read before it is cleared. -/
def init (reason : ResetReason) (handler : Handler) :
    (Option Kind × List CauseAccess) × Handler :=
  let (kept, slot) := handler.slot.recover reason
  ((kept, [.read, .clear]), { handler with slot })

/-- Reports the crash before the last reset, if there was one, and keeps the result. -/
def check (handler : Handler) : Option Report × Handler :=
  let (report, slot) := handler.slot.takeReport
  (report, ⟨slot, report⟩)

/-- Carries out a call. -/
def call (handler : Handler) : Call → Answer × Handler
  | .assertFailed file line =>
    (.reset, handler.capture [.assert (Utf8.cut fileNameCapacity file) line])
  | .railAssert code => (.reset, handler.capture [.railAssert code])
  | .stackOverflow task =>
    (.reset, handler.capture [.stackOverflow (Utf8.cut taskNameCapacity task)])
  | .stackProtector address => (.reset, handler.capture [.stackProtector address])
  | .runtimeError code => (.reset, handler.capture [.runtimeError code])
  | .abnormalExit status => (.reset, handler.capture [.exit status])
  | .capture writes => (.reset, handler.capture writes)
  | .hardFault frame status =>
    (.reset, handler.capture [.fault (FaultDump.ofParts frame status)])
  | .systemReset => (.reset, handler)
  | .init reason =>
    let ((kept, accesses), next) := handler.init reason
    (.kept kept accesses, next)
  | .clear => (.nothing, { handler with slot := Slot.zero })
  | .read => (.record handler.slot.read?, handler)
  | .check =>
    let (report, next) := handler.check
    (.report report, next)
  | .last => (.report handler.last, handler)
  | .lastText => (.text handler.lastText, handler)

theorem reset_of_interceptor {handler next : Handler} {c : Call}
    (h : handler.call c = (.reset, next)) : next.last = handler.last := by
  cases c <;> simp only [call, capture, Prod.mk.injEq, reduceCtorEq, false_and, true_and] at h <;>
    subst h <;> rfl

theorem check_latches (handler : Handler) : (handler.check).2.last = (handler.check).1 := rfl

end Handler

end Firmware.Crash
