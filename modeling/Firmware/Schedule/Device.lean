import Firmware.Schedule.Clock
import Firmware.Schedule.Event

/-!
# The hardware under the scheduler

A clock, a one-shot timer, and a flag that wakes the worker. A successful start arms the timer, a
failed one leaves it alone; a wake that comes while the flag is set is merged with the one before.

* `start_armed`: a start that succeeds sets the expiry to the time plus the delay.
* `start_failed`: a start that fails changes neither the clock, the timer nor the flag.
-/

namespace Firmware.Schedule

/-- The state of the hardware, and the log of what was done to it. -/
structure Device where
  clock : Clock
  /-- When the timer expires, in milliseconds, if it is armed. -/
  armed : Option Nat
  /-- Whether a wake is outstanding. -/
  notified : Bool
  /-- The outcomes of the starts to come; after them every start succeeds. -/
  outcomes : List (Option TimerError)
  log : List Event
deriving DecidableEq

namespace Device

/-- The hardware at rest. -/
def atRest (clock : Clock) : Device := ⟨clock, none, false, [], []⟩

/-- The time. -/
def now (device : Device) : Nat := device.clock.now

/-- The hardware with one more entry in its log. -/
def record (event : Event) (device : Device) : Device :=
  { device with log := device.log ++ [event] }

/-- The expiry of a timer that is started now. -/
def expiry (delay : UInt32) (device : Device) : Nat := min (device.now + delay.toNat) timeLimit

/-- Arms the timer, unless the service refuses. -/
def start (delay : UInt32) (device : Device) : Option TimerError × Device :=
  match device.outcomes.head?.join with
  | some error =>
    (some error, { device with outcomes := device.outcomes.tail }.record (.startFailed delay))
  | none =>
    (none, { device with
      outcomes := device.outcomes.tail
      armed := some (device.expiry delay) }.record (.start delay))

/-- Disarms the timer. -/
def stop (device : Device) : Device := { device with armed := none }.record .stop

/-- Wakes the worker. -/
def notify (device : Device) : Device := { device with notified := true }.record .notify

/-- Takes the wake that is outstanding. -/
def acknowledge (device : Device) : Device := { device with notified := false }

/-- Lets ticks pass; the timer does not notice. -/
def tick (ticks : Nat) (device : Device) : Device :=
  { device with clock := device.clock.advance ticks }

theorem start_armed {delay : UInt32} {device next : Device}
    (h : device.start delay = (none, next)) : next.armed = some (device.expiry delay) := by
  rw [start] at h
  split at h
  · simp at h
  · cases h
    rfl

theorem start_failed {delay : UInt32} {device next : Device} {error : TimerError}
    (h : device.start delay = (some error, next)) :
    next.clock = device.clock ∧ next.armed = device.armed ∧ next.notified = device.notified := by
  rw [start] at h
  split at h
  · cases h
    exact ⟨rfl, rfl, rfl⟩
  · simp at h

end Device

end Firmware.Schedule
