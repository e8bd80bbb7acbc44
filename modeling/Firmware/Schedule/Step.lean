import Firmware.Schedule.Event

/-!
# Steps that drive a scheduler

A script is a list of steps. Some steps carry steps of their own, which run like an interrupt in the
middle of the step or inside a call that an action makes.

* `size_pos`: every step counts itself.
-/

namespace Firmware.Schedule

/-- One thing that is done to a scheduler or to its hardware. -/
inductive Step where
  /-- A request by the code of its action; `preempt` runs between its two parts. -/
  | schedule (code : Nat) (delay : UInt32) (aux : UInt8) (preempt : List Step)
  /-- One wake of the worker; `preempt` runs between its two parts. -/
  | execute (preempt : List Step)
  /-- The worker handles the wakes that are outstanding. -/
  | drain
  /-- The worker runs, for a number of waits; if it may sleep, an armed timer expires while it
  waits. -/
  | run (waits : Nat) (sleep : Bool)
  | init
  | expire
  /-- Ticks pass. -/
  | tick (ticks : Nat)
  /-- Ticks pass, and the timer expires if it is due then. -/
  | advance (ticks : Nat)
  | setTicks (ticks : UInt64)
  | setFrequency (frequency : UInt32)
  /-- Sets the outcomes of starts to come, after those set already. -/
  | failStart (outcomes : List (Option TimerError))
  /-- Sets the steps that run inside calls, by call, in place of those set before; without a
  list nothing changes. -/
  | handler (during : Option (List (Call × List Step)))

namespace Step

/-- The name of a step. -/
def name : Step → String
  | schedule .. => "schedule"
  | execute _ => "execute"
  | drain => "drain"
  | run .. => "run"
  | init => "init"
  | expire => "expire"
  | tick _ => "tick"
  | advance _ => "advance"
  | setTicks _ => "set_ticks"
  | setFrequency _ => "set_freq"
  | failStart _ => "fail_start"
  | handler _ => "handler"

mutual

/-- The number of steps in a step, itself included. -/
def size : Step → Nat
  | schedule _ _ _ preempt => 1 + sizeList preempt
  | execute preempt => 1 + sizeList preempt
  | handler (some during) => 1 + sizeHooks during
  | handler none => 1
  | drain => 1
  | run .. => 1
  | init => 1
  | expire => 1
  | tick _ => 1
  | advance _ => 1
  | setTicks _ => 1
  | setFrequency _ => 1
  | failStart _ => 1

/-- The number of steps in a list of them. -/
def sizeList : List Step → Nat
  | [] => 0
  | step :: steps => step.size + sizeList steps

/-- The number of steps that are set for calls. -/
def sizeHooks : List (Call × List Step) → Nat
  | [] => 0
  | (_, steps) :: hooks => sizeList steps + sizeHooks hooks

end

theorem size_pos (step : Step) : 0 < step.size := by
  cases step
  case handler during => cases during <;> simp only [size] <;> omega
  all_goals simp only [size]; omega

end Step

end Firmware.Schedule
