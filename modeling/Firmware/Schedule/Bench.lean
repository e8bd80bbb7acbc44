import Firmware.Schedule.Scheduler
import Firmware.Schedule.Step

/-!
# A scheduler with its worker

The worker waits for a wake, looks at the pending request and performs its action by calls on the rest
of the system. Steps can be put into a call, which then run inside it once. How such steps run is a
parameter here, `nest`; a worker alone is one whose `nest` does nothing.

* `perform_reset`: an action ends in a reset exactly if one of its calls is one.
* `drain_le`: a drain handles no more wakes than it is allowed to.
-/

namespace Firmware.Schedule

/-- A scheduler, and the steps that are put into calls, by call. -/
structure Bench where
  scheduler : Scheduler
  hooks : List (Call × List Step)

namespace Bench

/-- A scheduler on hardware at rest. -/
def start (clock : Clock) : Bench := ⟨⟨none, Device.atRest clock⟩, []⟩

/-- The hardware. -/
def device (bench : Bench) : Device := bench.scheduler.device

/-- Changes the scheduler. -/
def onScheduler (change : Scheduler → Scheduler) (bench : Bench) : Bench :=
  { bench with scheduler := change bench.scheduler }

/-- Changes the hardware. -/
def onDevice (change : Device → Device) (bench : Bench) : Bench :=
  bench.onScheduler fun scheduler => { scheduler with device := change scheduler.device }

variable (nest : List Step → Bench → Bench)

/-- Makes a call. The steps that were put into it are taken out before they run. -/
def invoke (call : Call) (bench : Bench) : Bench :=
  let called := bench.onDevice (·.record (.call call))
  match called.hooks.lookup call with
  | some steps => nest steps { called with hooks := called.hooks.filter (·.1 ≠ call) }
  | none => called

/-- Makes the calls of an action, up to the first reset; tells whether there was one. -/
def perform : List Call → Bench → Bool × Bench
  | [], bench => (false, bench)
  | call :: calls, bench =>
    let called := invoke nest call bench
    if call = .reset then (true, called) else perform calls called

/-- Asks for an action. The steps to preempt it run between its two parts. -/
def schedule (action : Action) (delay : UInt32) (aux : UInt8) (preempt : List Step)
    (bench : Bench) : Outcome × Bench :=
  let (failure, scheduler) := bench.scheduler.request action delay aux
  let preempted := nest preempt { bench with scheduler }
  let outcome :=
    match failure with
    | some error => Outcome.rejected error
    | none => Outcome.accepted
  (outcome, preempted.onScheduler (·.settle action delay failure))

/-- One wake of the worker. The steps to preempt it run after its look at the pending request. -/
def execute (preempt : List Step) (bench : Bench) : Worked × Bench :=
  let (look, scheduler) := bench.scheduler.look
  let preempted := nest preempt { bench with scheduler }
  match look with
  | .nothing => (.nothing, preempted)
  | .early request remaining =>
    (.nothing, preempted.onScheduler (·.rearm request remaining))
  | .due request =>
    let (reset, done) := perform nest (request.action.calls request.aux) preempted
    (if reset then .reset else .performed request.action, done)

/-- Handles outstanding wakes, at most a given number of them. -/
def drain : Nat → Bench → List Worked × Bench
  | 0, bench => ([], bench)
  | limit + 1, bench =>
    if bench.device.notified then
      let (worked, woken) := execute nest [] (bench.onDevice Device.acknowledge)
      let (rest, drained) := drain limit woken
      (worked :: rest, drained)
    else ([], bench)

/-- Lets the clock run until the timer expires, if it is armed. -/
def sleep (bench : Bench) : Bench :=
  match bench.device.armed with
  | none => bench
  | some expiry =>
    let ticks := bench.device.clock.ticksFor (expiry - bench.device.now)
    (bench.onDevice fun device => { device with armed := none }.tick ticks).onScheduler
      Scheduler.timerExpired

/-- Waits for a wake. While it waits the worker may sleep until the timer expires. -/
def wait (maySleep : Bool) (bench : Bench) : Bench :=
  let waiting := bench.onDevice (·.record .wait)
  if maySleep && !waiting.device.notified then waiting.sleep else waiting

/-- The worker: it waits and handles one wake after another, for a number of waits. -/
def run (maySleep : Bool) : (waits : Nat) → Bench → RunEnd × Bench
  | 0, bench => (.limit, bench)
  | waits + 1, bench =>
    let waited := bench.wait maySleep
    if waited.device.notified then
      match execute nest [] (waited.onDevice Device.acknowledge) with
      | (.reset, done) => (.reset, done)
      | (_, done) => run maySleep waits done
    else (.idle, waited)

/-- Lets ticks pass; tells whether the timer expired. -/
def advance (ticks : Nat) (bench : Bench) : Bool × Bench :=
  let later := bench.onDevice (·.tick ticks)
  match later.device.armed with
  | some expiry =>
    if expiry ≤ later.device.now then
      (true, (later.onDevice fun device => { device with armed := none }).onScheduler
        Scheduler.timerExpired)
    else (false, later)
  | none => (false, later)

theorem perform_reset (calls : List Call) (bench : Bench) :
    (perform nest calls bench).1 = true ↔ .reset ∈ calls := by
  induction calls generalizing bench with
  | nil => simp [perform]
  | cons call calls ih =>
    rw [perform]
    by_cases h : call = .reset
    · simp [h]
    · simp [h, ih, Ne.symm h]

theorem drain_le (limit : Nat) (bench : Bench) : (drain nest limit bench).1.length ≤ limit := by
  induction limit generalizing bench with
  | zero => simp [drain]
  | succ limit ih =>
    rw [drain]
    split
    · simpa using ih _
    · simp

end Bench

end Firmware.Schedule
