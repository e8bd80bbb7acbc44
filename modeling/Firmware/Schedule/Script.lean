import Firmware.Schedule.Bench

/-!
# Playing a script

The steps of a script are taken one after another, and after each the scheduler is looked at. Steps
run inside other steps to a depth that the number of steps in the script bounds, since no step runs
twice.

* `length_play`: a script has one view for each of its steps.
-/

namespace Firmware.Schedule

/-- The number of wakes that one drain handles at most. -/
def drainLimit : Nat := 20

namespace Step

/-- Takes one step. The steps inside it are taken to a given depth, and each leaves an entry in the
log when it is done. -/
def take : (depth : Nat) → Step → Bench → Outcome × Bench
  | 0, _, bench => (.nothing, bench)
  | depth + 1, step, bench =>
    let nest : List Step → Bench → Bench := fun steps bench =>
      steps.foldl (fun bench step =>
        let (outcome, next) := take depth step bench
        next.onDevice (·.record (.nested step.name outcome next.scheduler.remaining))) bench
    match step with
    | .schedule code delay aux preempt =>
      match Action.ofInt? code with
      | some action => bench.schedule nest action delay aux preempt
      | none => (.unknownAction, bench)
    | .execute preempt =>
      let (worked, next) := bench.execute nest preempt
      (.worked worked, next)
    | .drain =>
      let (wakes, next) := bench.drain nest drainLimit
      (.drained wakes, next)
    | .run waits maySleep =>
      let (ended, next) := bench.run nest maySleep waits
      (.ran ended, next)
    | .init => (.nothing, bench.onScheduler Scheduler.init)
    | .expire => (.nothing, bench.onScheduler Scheduler.timerExpired)
    | .tick ticks => (.nothing, bench.onDevice (·.tick ticks))
    | .advance ticks =>
      let (expired, next) := bench.advance ticks
      (if expired then .expired else .nothing, next)
    | .setTicks ticks =>
      (.nothing, bench.onDevice fun device => { device with clock.ticks := ticks })
    | .setFrequency frequency =>
      (.nothing, bench.onDevice fun device => { device with clock.frequency := frequency })
    | .failStart outcomes =>
      (.nothing, bench.onDevice fun device =>
        { device with outcomes := device.outcomes ++ outcomes })
    | .handler (some hooks) => (.nothing, { bench with hooks })
    | .handler none => (.nothing, bench)

end Step

/-- What is seen of a scheduler after a step. -/
structure View where
  outcome : Outcome
  /-- The entries of the log since the step before. -/
  log : List Event
  remaining : Remaining
  armed : Option Nat
  notified : Bool
  now : Nat

namespace View

/-- The view after a step with a given outcome. -/
def ofBench (outcome : Outcome) (bench : Bench) : View where
  outcome := outcome
  log := bench.device.log
  remaining := bench.scheduler.remaining
  armed := bench.device.armed
  notified := bench.device.notified
  now := bench.device.now

end View

namespace Script

/-- Takes steps one after another; the log begins anew at each. -/
def playFrom (depth : Nat) : List Step → Bench → List View
  | [], _ => []
  | step :: steps, bench =>
    let (outcome, next) := step.take depth (bench.onDevice fun device => { device with log := [] })
    View.ofBench outcome next :: playFrom depth steps next

/-- Plays a script on a scheduler that has just been made. -/
def play (clock : Clock) (steps : List Step) : List View :=
  playFrom (Step.sizeList steps) steps (Bench.start clock)

theorem length_playFrom (depth : Nat) (steps : List Step) (bench : Bench) :
    (playFrom depth steps bench).length = steps.length := by
  induction steps generalizing bench with
  | nil => rfl
  | cons step steps ih => simp [playFrom, ih]

theorem length_play (clock : Clock) (steps : List Step) :
    (play clock steps).length = steps.length := length_playFrom _ _ _

end Script

end Firmware.Schedule
