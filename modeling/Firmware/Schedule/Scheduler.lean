import Firmware.Schedule.Device

/-!
# The scheduler of delayed actions

At most one request is pending. A new one replaces it, and asking for nothing cancels it. Each
operation is split into the parts that run with interrupts off, so that whatever can come in between
can be put between them: `request` and `settle` make up a call, `look` and then `rearm` or the action
itself make up a wake of the worker, `disarm` and `forget` make up a fresh start.

* `deadline_of_lt`: a request is due when its delay has passed, if that time fits 64 bits.
* `request_failed`: a request whose timer could not be armed leaves nothing pending.
* `look_due`: a request is taken only when it is due.
* `rearm_of_ne`: a re-arm leaves a request alone that is not the one it was meant for.
-/

namespace Firmware.Schedule

/-- A request as it was accepted. -/
structure Request where
  action : Action
  /-- The delay that was asked for, in milliseconds. -/
  delay : UInt32
  /-- When it was asked for, in milliseconds. -/
  start : Nat
  /-- A byte that is handed to the action. -/
  aux : UInt8
deriving DecidableEq

namespace Request

/-- When the delay of a request has passed. -/
def lapse (request : Request) : Nat := request.start + request.delay.toNat

/-- When a request is due: when its delay has passed, in a sum of 64 bits that starts over at zero
where it runs over. -/
def deadline (request : Request) : Nat := request.lapse % UInt64.size

theorem deadline_le_lapse (request : Request) : request.deadline ≤ request.lapse := Nat.mod_le _ _

theorem deadline_lt (request : Request) : request.deadline < UInt64.size :=
  Nat.mod_lt _ (by decide)

theorem deadline_of_lt {request : Request} (h : request.lapse < UInt64.size) :
    request.deadline = request.lapse := Nat.mod_eq_of_lt h

/-- A request without delay is due when it is made. -/
theorem deadline_le_start {request : Request} (h : request.delay = 0) :
    request.deadline ≤ request.start := by
  have hle := request.deadline_le_lapse
  rwa [lapse, h, UInt32.toNat_zero, Nat.add_zero] at hle

/-- Once a request has been made, no more than its delay is left. -/
theorem deadline_sub_le {request : Request} {time : Nat} (h : request.start ≤ time) :
    request.deadline - time ≤ request.delay.toNat := by
  have hle := request.deadline_le_lapse
  unfold lapse at hle
  omega

end Request

/-- What the worker sees when it looks at the pending request. -/
inductive Look where
  | nothing
  /-- The request is not due for some milliseconds yet. -/
  | early (request : Request) (remaining : Nat)
  /-- The request was due and has been taken. -/
  | due (request : Request)
deriving DecidableEq

/-- The pending request, and the hardware. -/
structure Scheduler where
  pending : Option Request
  device : Device
deriving DecidableEq

namespace Scheduler

/-- The largest delay that a timer can be given. -/
def delayLimit : Nat := UInt32.size - 1

/-- A number of milliseconds as a delay, the largest delay if there are more. -/
def delayOf (milliseconds : Nat) : UInt32 := UInt32.ofNat (min milliseconds delayLimit)

/-- Disarms the timer. -/
def disarm (scheduler : Scheduler) : Scheduler :=
  { scheduler with device := scheduler.device.stop }

/-- Drops the pending request; the timer is left as it is. -/
def forget (scheduler : Scheduler) : Scheduler := { scheduler with pending := none }

/-- Starts afresh: the timer is disarmed, and then what is pending is dropped. -/
def init (scheduler : Scheduler) : Scheduler := scheduler.disarm.forget

/-- The timer expired, or a wake came from elsewhere. -/
def timerExpired (scheduler : Scheduler) : Scheduler :=
  { scheduler with device := scheduler.device.notify }

/-- The first part of a call: the state and the timer change together. Gives the reason if the timer
could not be armed, in which case nothing is left pending. -/
def request (action : Action) (delay : UInt32) (aux : UInt8) (scheduler : Scheduler) :
    Option TimerError × Scheduler :=
  let stopped := scheduler.device.stop
  if action = .nothing then (none, ⟨none, stopped⟩)
  else
    let accepted : Request := ⟨action, delay, stopped.now, aux⟩
    if delay = 0 then (none, ⟨some accepted, stopped⟩)
    else
      match stopped.start delay with
      | (none, device) => (none, ⟨some accepted, device⟩)
      | (some error, device) => (some error, ⟨none, device⟩)

/-- The last part of a call: a request without delay wakes the worker. -/
def settle (action : Action) (delay : UInt32) (failure : Option TimerError)
    (scheduler : Scheduler) : Scheduler :=
  if failure = none ∧ action ≠ .nothing ∧ delay = 0 then
    { scheduler with device := scheduler.device.notify }
  else scheduler

/-- The time until the pending request is due, and its action. -/
def remaining (scheduler : Scheduler) : Remaining :=
  scheduler.pending.map fun request =>
    (min (request.deadline - scheduler.device.now) delayLimit, request.action)

/-- The first part of a wake: the worker looks at the pending request and takes it if it is due. -/
def look (scheduler : Scheduler) : Look × Scheduler :=
  match scheduler.pending with
  | none => (.nothing, scheduler)
  | some request =>
    if request.delay ≠ 0 ∧ scheduler.device.now < request.deadline then
      (.early request (request.deadline - scheduler.device.now), scheduler)
    else (.due request, { scheduler with pending := none })

/-- The last part of a wake that came too early: the timer is armed for the rest of the delay, unless
another request has taken the place of the one that was seen. A request that cannot be armed again is
dropped. -/
def rearm (seen : Request) (remaining : Nat) (scheduler : Scheduler) : Scheduler :=
  if scheduler.pending = some seen then
    match scheduler.device.start (delayOf remaining) with
    | (none, device) => { scheduler with device }
    | (some _, device) => ⟨none, device⟩
  else scheduler

theorem request_failed {action : Action} {delay : UInt32} {aux : UInt8}
    {scheduler next : Scheduler} {error : TimerError}
    (h : scheduler.request action delay aux = (some error, next)) : next.pending = none := by
  simp only [request] at h
  split at h
  · simp at h
  · split at h
    · simp at h
    · split at h
      · simp at h
      · cases h
        rfl

theorem look_due {scheduler next : Scheduler} {request : Request}
    (h : scheduler.look = (.due request, next)) :
    scheduler.pending = some request ∧ next.pending = none ∧
      (request.delay = 0 ∨ request.deadline ≤ scheduler.device.now) := by
  rw [look] at h
  split at h
  · simp at h
  next hpending =>
    split at h
    · simp at h
    next hdue =>
      cases h
      refine ⟨hpending, rfl, ?_⟩
      by_cases hzero : request.delay = 0
      · exact Or.inl hzero
      · exact Or.inr (Nat.le_of_not_lt fun hlt => hdue ⟨hzero, hlt⟩)

/-- A re-arm leaves other requests alone, unless they equal the one it was meant for. -/
theorem rearm_of_ne {seen : Request} {remaining : Nat} {scheduler : Scheduler}
    (h : scheduler.pending ≠ some seen) : scheduler.rearm seen remaining = scheduler := by
  rw [rearm, if_neg h]

end Scheduler

end Firmware.Schedule
