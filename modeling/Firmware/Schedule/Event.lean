import Firmware.Schedule.Action

/-!
# What can be seen of a scheduler

The outcomes of the steps that drive a scheduler, and the events that its hardware and its actions
leave in a log.

* `Worked`, `RunEnd`, `Outcome`: what a step came to.
* `Event`: one entry of the log, with its text.
-/

namespace Firmware.Schedule

/-- Why the timer could not be armed. -/
inductive TimerError where
  /-- The timer service has not been started. -/
  | notInitialized
  /-- The service refused, with a status of its own. -/
  | rejected (status : UInt32)
deriving DecidableEq

/-- What one wake of the worker came to. -/
inductive Worked where
  /-- No action was due. -/
  | nothing
  | performed (action : Action)
  /-- The action ended in a reset. -/
  | reset
deriving DecidableEq

/-- The text of what a wake came to, if it came to anything. -/
def Worked.text? : Worked → Option String
  | nothing => none
  | performed action => some action.name
  | reset => some "reset"

/-- How a run of the worker ended. -/
inductive RunEnd where
  | reset
  /-- The worker waits for a wake that nothing will bring. -/
  | idle
  /-- The worker was to wait once more than it was allowed to. -/
  | limit
deriving DecidableEq

/-- The text of how a run ended. -/
def RunEnd.text : RunEnd → String
  | reset => "reset"
  | idle => "idle"
  | limit => "limit"

/-- The time left and the action that is pending. -/
abbrev Remaining := Option (Nat × Action)

/-- What a step came to. -/
inductive Outcome where
  | nothing
  | accepted
  | rejected (error : TimerError)
  | unknownAction
  | worked (worked : Worked)
  | drained (wakes : List Worked)
  | ran (ended : RunEnd)
  /-- The timer expired. -/
  | expired
deriving DecidableEq

/-- An entry of the log. -/
inductive Event where
  | stop
  | start (delay : UInt32)
  | startFailed (delay : UInt32)
  | notify
  | wait
  | call (call : Call)
  /-- A step ran inside another one. -/
  | nested (step : String) (outcome : Outcome) (remaining : Remaining)
deriving DecidableEq

/-- The text of an entry; a step that ran inside another one is told by its name. -/
def Event.text : Event → String
  | stop => "stop"
  | start delay => "start " ++ Text.Numeral.decimalString delay.toNat
  | startFailed delay => "start " ++ Text.Numeral.decimalString delay.toNat ++ " failed"
  | notify => "notify"
  | wait => "wait"
  | call c => c.text
  | nested step _ _ => step

end Firmware.Schedule
