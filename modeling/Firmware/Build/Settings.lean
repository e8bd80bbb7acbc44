import Firmware.Text.Numeral

/-!
# Settings of the worker

What can be tuned about the worker that runs delayed actions, with the values that hold where
nothing is set, and the check that a build makes.

* `check_default`: the default settings pass the check.
-/

namespace Firmware.Build

open Text.Numeral (decimalString)

/-- The tunables of the worker. -/
structure Settings where
  /-- How long a reconnect waits for the disconnect, in milliseconds. -/
  disconnectTimeout : UInt32
  /-- The stack of the worker, in bytes. -/
  stackSize : UInt64
  /-- The priority of the worker. -/
  priority : UInt8
deriving DecidableEq

/-- The priority of an ordinary thread. -/
def priorityNormal : UInt8 := 24

/-- A priority above that of ordinary threads. -/
def priorityAboveNormal : UInt8 := 32

/-- The highest priority of a thread; the one above it is kept for interrupts. -/
def priorityLimit : UInt8 := 55

/-- The name of the worker thread. -/
def workerName : String := "scheduler_action"

/-- Settings that a worker cannot have. -/
inductive SettingsError where
  | zeroStackSize
  | priorityOutOfRange (priority : UInt8)
deriving DecidableEq

/-- The text of an error. -/
def SettingsError.message : SettingsError → String
  | zeroStackSize => "worker-stack-size must be nonzero"
  | priorityOutOfRange priority =>
    "worker-priority " ++ decimalString priority.toNat ++ " is outside 1..=" ++
      decimalString priorityLimit.toNat

namespace Settings

/-- The settings where nothing is set. -/
def default : Settings := ⟨5000, 512, priorityAboveNormal⟩

/-- Checks that a worker can have the settings; the stack is looked at before the priority. -/
def check (settings : Settings) : Except SettingsError Unit :=
  if settings.stackSize = 0 then .error .zeroStackSize
  else if settings.priority = 0 ∨ priorityLimit < settings.priority then
    .error (.priorityOutOfRange settings.priority)
  else .ok ()

/-- The source text that defines the settings as constants. -/
def constants (settings : Settings) : String :=
  String.join
    ["/// How long a reconnect waits for the disconnect to be confirmed.\n",
      "pub const DISCONNECT_TIMEOUT_MS: u32 = ", decimalString settings.disconnectTimeout.toNat, ";\n",
      "/// Stack to give the worker thread, in bytes.\n",
      "pub const WORKER_STACK_SIZE: usize = ", decimalString settings.stackSize.toNat, ";\n",
      "/// CMSIS-RTOS2 priority of the worker thread. Defaults to `osPriorityAboveNormal`, ",
      "so actions preempt ordinary application threads.\n",
      "pub const WORKER_PRIORITY: u8 = ", decimalString settings.priority.toNat, ";\n",
      "/// `osPriorityNormal`, for comparison.\n",
      "pub const PRIORITY_NORMAL: u8 = ", decimalString priorityNormal.toNat, ";\n"]

theorem check_default : default.check = .ok () := rfl

end Settings

end Firmware.Build
