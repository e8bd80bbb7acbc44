import Firmware.Build.Settings

/-!
# Actions and the calls they make

What can be asked for, and the calls on the rest of the system by which it is done. The outcome of a
call has no say in what follows it: a connection that was not seen to close, storage that could not be
erased and an install that was refused are passed over.

* `calls_eq_nil_iff`: every action but the empty one does something.
* `reset_mem_calls_iff`: exactly the two reboots end in a reset.
* `calls_subset_all`: no action makes a call that is not in the list of all calls.
-/

namespace Firmware.Schedule

/-- What can be scheduled. -/
inductive Action where
  /-- Asking for nothing cancels what is pending. -/
  | nothing
  | reboot
  | clearCredentialsAndReboot
  | reconnect
  | clearAndReconnect
  /-- Leaves to the boot loader, which installs a staged image. -/
  | firmwareInstall
deriving DecidableEq

/-- What is erased before an install. -/
inductive EraseMode where
  | nothing
  | application
  | everything
deriving DecidableEq

namespace EraseMode

/-- All modes, by rising code. -/
def all : List EraseMode := [nothing, application, everything]

/-- The name of a mode. -/
def name : EraseMode → String
  | nothing => "None"
  | application => "App"
  | everything => "Full"

/-- The mode with a given code. -/
def ofInt? : Int → Option EraseMode
  | .ofNat n => all[n]?
  | .negSucc _ => none

end EraseMode

/-- A call that an action makes on the rest of the system. -/
inductive Call where
  | reset
  | clearCredentialCache
  | disconnect
  | waitDisconnected (timeout : UInt32)
  | connectAndWait
  | eraseAppParameters
  | eraseAllStorage
  | rebootAndInstall
deriving DecidableEq

/-- How long a reconnect waits for the disconnect, in milliseconds. -/
def disconnectTimeout : UInt32 := Build.Settings.default.disconnectTimeout

namespace Call

/-- All calls, with what they are given. -/
def all : List Call :=
  [reset, clearCredentialCache, disconnect, waitDisconnected disconnectTimeout, connectAndWait,
    eraseAppParameters, eraseAllStorage, rebootAndInstall]

/-- The name of a call, without what it is given. -/
def name : Call → String
  | reset => "reset"
  | clearCredentialCache => "clear_credential_cache"
  | disconnect => "disconnect"
  | waitDisconnected _ => "wait_disconnected"
  | connectAndWait => "connect_and_wait"
  | eraseAppParameters => "erase_app_parameters"
  | eraseAllStorage => "erase_all_storage"
  | rebootAndInstall => "reboot_and_install"

/-- A call with what it is given. -/
def text : Call → String
  | waitDisconnected timeout => "wait_disconnected " ++ Text.Numeral.decimalString timeout.toNat
  | call => call.name

/-- The call with a given name. -/
def ofName? (name : String) : Option Call := all.find? fun call => call.name == name

end Call

namespace Action

/-- All actions, by rising code. -/
def all : List Action :=
  [nothing, reboot, clearCredentialsAndReboot, reconnect, clearAndReconnect, firmwareInstall]

/-- The name of an action. -/
def name : Action → String
  | nothing => "None"
  | reboot => "Reboot"
  | clearCredentialsAndReboot => "ClearCredentialsAndReboot"
  | reconnect => "Reconnect"
  | clearAndReconnect => "ClearAndReconnect"
  | firmwareInstall => "FirmwareInstall"

/-- The action with a given code. -/
def ofInt? : Int → Option Action
  | .ofNat n => all[n]?
  | .negSucc _ => none

/-- The calls that close a connection. -/
def disconnectCalls : List Call := [.disconnect, .waitDisconnected disconnectTimeout]

/-- The calls that erase storage before an install, for the byte that came with the request. -/
def eraseCalls (aux : UInt8) : List Call :=
  match EraseMode.ofInt? aux.toNat with
  | some .application => [.eraseAppParameters]
  | some .everything => [.eraseAllStorage]
  | some .nothing => []
  | none => []

/-- The calls of an action, in order. -/
def calls (aux : UInt8) : Action → List Call
  | nothing => []
  | reboot => [.reset]
  | clearCredentialsAndReboot => [.clearCredentialCache, .reset]
  | reconnect => disconnectCalls ++ [.connectAndWait]
  | clearAndReconnect => disconnectCalls ++ [.clearCredentialCache, .connectAndWait]
  | firmwareInstall => eraseCalls aux ++ [.rebootAndInstall]

theorem calls_eq_nil_iff (action : Action) (aux : UInt8) :
    action.calls aux = [] ↔ action = nothing := by
  cases action <;> simp [calls]

theorem reset_mem_calls_iff (action : Action) (aux : UInt8) :
    .reset ∈ action.calls aux ↔ action = reboot ∨ action = clearCredentialsAndReboot := by
  cases action <;> simp [calls, disconnectCalls]
  rw [eraseCalls]
  split <;> simp

theorem calls_subset_all (action : Action) (aux : UInt8) : action.calls aux ⊆ Call.all := by
  have herase : eraseCalls aux ⊆ Call.all := by
    rw [eraseCalls]
    split <;> decide
  cases action
  case firmwareInstall => exact List.append_subset.2 ⟨herase, by decide⟩
  all_goals simp [calls, disconnectCalls, Call.all]

end Action

end Firmware.Schedule
