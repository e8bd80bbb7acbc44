import Firmware.Proofs.Schedule.Sections
import Mathlib.Logic.Function.Basic

/-!
# Interleaved calls

Any number of contexts use one scheduler at once. A call is cut into the parts that nothing can come
into, and between two parts of it any other context may go on. A `World` is the scheduler together
with what each call that has begun is still to do, and a `Run` is a world that moves for ever, one
part of one call or one event of the hardware at a time; a finite run is the beginning of one. A
call is known by the number of the move that began it, so that no two calls are taken for one
another.

* `pending_step`: where a pending request comes from, one move earlier.
* `rest_step_cases`: where the rest of a call comes from, one move earlier.
* `fresh_world`: only calls that have begun have anything left to do.
-/

namespace Firmware.Schedule

/-- What a call has still to do. -/
inductive Rest where
  /-- A request has gone through; a wake may be due. -/
  | settle (action : Action) (delay : UInt32) (failure : Option TimerError)
  /-- The timer has been disarmed for a fresh start; what is pending is to be dropped. -/
  | forget
  /-- The worker is awake and is to look at what is pending. -/
  | look
  | rearm (seen : Request) (remaining : Nat)
  /-- A request has been taken; its action is to be performed. -/
  | perform (taken : Request)
  /-- An action is being performed; these calls of it are left. -/
  | calls (left : List Call)

namespace Rest

/-- What the worker goes on with after its look. -/
def ofLook : Look → Option Rest
  | .nothing => none
  | .early seen remaining => some (.rearm seen remaining)
  | .due taken => some (.perform taken)

/-- Goes on with a call for one part of it. -/
def next (scheduler : Scheduler) : Rest → Option Rest × Scheduler
  | settle action delay failure => (none, scheduler.settle action delay failure)
  | forget => (none, scheduler.forget)
  | look => (ofLook scheduler.look.1, scheduler.look.2)
  | rearm seen remaining => (none, scheduler.rearm seen remaining)
  | perform taken => (some (.calls (taken.action.calls taken.aux)), scheduler)
  | calls [] => (none, scheduler)
  | calls (call :: left) =>
    (if call = .reset then none else some (.calls left),
      { scheduler with device := scheduler.device.record (.call call) })

end Rest

/-- What happens next. -/
inductive Move where
  /-- A request goes through its critical section. -/
  | request (action : Action) (delay : UInt32) (aux : UInt8)
  /-- A fresh start begins by disarming the timer. -/
  | disarm
  /-- Somebody does what the worker does on a wake, without having waited. -/
  | execute
  /-- The worker comes back from waiting, if a wake is outstanding. -/
  | wait
  /-- The call that began with move number `call` goes on. -/
  | resume (call : Nat)
  /-- The timer runs out, if it is armed. -/
  | expire
  /-- A wake comes from elsewhere. -/
  | wake
  | setClock (clock : Clock)
  /-- What the starts to come will come to. -/
  | setOutcomes (outcomes : List (Option TimerError))
  /-- Something is noted in the log. -/
  | record (event : Event)
  | clearLog

/-- A scheduler that is used by many. -/
structure World where
  scheduler : Scheduler
  /-- What each call has still to do. -/
  rest : Nat → Option Rest
  /-- The number of moves made. -/
  made : Nat

namespace World

/-- Counts a move that leaves a call with something to do. -/
def leave (call : Nat) (rest : Option Rest) (scheduler : Scheduler) (w : World) : World :=
  ⟨scheduler, Function.update w.rest call rest, w.made + 1⟩

/-- Counts a move of the hardware. -/
def onDevice (change : Device → Device) (w : World) : World :=
  ⟨{ w.scheduler with device := change w.scheduler.device }, w.rest, w.made + 1⟩

/-- Makes a move. -/
def step (w : World) : Move → World
  | .request action delay aux =>
    let (failure, scheduler) := w.scheduler.request action delay aux
    w.leave w.made (some (.settle action delay failure)) scheduler
  | .disarm => w.leave w.made (some .forget) w.scheduler.disarm
  | .execute => w.leave w.made (some .look) w.scheduler
  | .wait =>
    if w.scheduler.device.notified then
      w.leave w.made (some .look) { w.scheduler with device := w.scheduler.device.acknowledge }
    else w.onDevice id
  | .resume call =>
    match w.rest call with
    | some rest =>
      let (rest', scheduler) := rest.next w.scheduler
      w.leave call rest' scheduler
    | none => w.onDevice id
  | .expire =>
    w.onDevice fun device =>
      if device.armed = none then device else { device with armed := none }.notify
  | .wake => w.onDevice Device.notify
  | .setClock clock => w.onDevice fun device => { device with clock }
  | .setOutcomes outcomes => w.onDevice fun device => { device with outcomes }
  | .record event => w.onDevice (·.record event)
  | .clearLog => w.onDevice fun device => { device with log := [] }

/-- The world before any call, on any hardware: nothing is pending, as in a scheduler that has just
been made or has just been started afresh. -/
def start (device : Device) : World := ⟨⟨none, device⟩, fun _ => none, 0⟩

/-- Only calls that have begun have anything left to do. -/
def Fresh (w : World) : Prop := ∀ call, w.made ≤ call → w.rest call = none

/-- The move is a critical section that decides anew what is pending. -/
def Decides (w : World) (m : Move) : Prop :=
  (∃ action delay aux, m = .request action delay aux) ∨
    ∃ call, m = .resume call ∧ w.rest call = some .forget

/-- In the move a call of the worker takes a request. -/
def Takes (w : World) (m : Move) (call : Nat) (taken : Request) : Prop :=
  m = .resume call ∧ w.rest call = some .look ∧ w.scheduler.look.1 = .due taken

variable {w : World} {m : Move} {r : Request}

@[simp] theorem rest_leave_self {call : Nat} {rest : Option Rest} {s : Scheduler} :
    (w.leave call rest s).rest call = rest := Function.update_self _ _ _

theorem rest_leave_of_ne {call other : Nat} {rest : Option Rest} {s : Scheduler}
    (h : other ≠ call) : (w.leave call rest s).rest other = w.rest other :=
  Function.update_of_ne h _ _

@[simp] theorem made_step : (w.step m).made = w.made + 1 := by
  cases m with
  | resume call => simp only [step]; split <;> rfl
  | wait => simp only [step]; split <;> rfl
  | _ => rfl

/-- Going on with a call keeps a request pending only if the call neither drops nor takes it. -/
theorem pending_next {rest : Rest} {s : Scheduler} (h : (rest.next s).2.pending = some r) :
    s.pending = some r ∧ rest ≠ .forget ∧ (rest = .look → ∀ taken, s.look.1 ≠ .due taken) := by
  cases rest with
  | settle action delay failure =>
    refine ⟨?_, Rest.noConfusion, Rest.noConfusion⟩
    simp only [Rest.next, Scheduler.settle] at h
    split at h <;> exact h
  | forget => cases h
  | look =>
    simp only [Rest.next] at h
    rcases s.look_cases with ⟨hnone, heq⟩ | ⟨seen, -, -, -, heq⟩ | ⟨taken, -, -, heq⟩ <;>
      rw [heq] at h
    · rw [hnone] at h; cases h
    · exact ⟨h, Rest.noConfusion, fun _ taken htaken => by rw [heq] at htaken; cases htaken⟩
    · cases h
  | rearm seen remaining =>
    refine ⟨?_, Rest.noConfusion, Rest.noConfusion⟩
    simp only [Rest.next] at h
    rcases s.rearm_cases seen remaining with ⟨hseen, device, -, heq⟩ | ⟨-, device, -, heq⟩ |
      ⟨-, heq⟩ <;> rw [heq] at h
    · rw [hseen]; exact h
    · cases h
    · exact h
  | perform taken => exact ⟨h, Rest.noConfusion, Rest.noConfusion⟩
  | calls left =>
    refine ⟨?_, Rest.noConfusion, Rest.noConfusion⟩
    cases left <;> exact h

/-- A request is pending after a move because the move made it, or because it was pending and the
move neither decided anew nor took it. -/
theorem pending_step (h : (w.step m).scheduler.pending = some r) :
    (∃ action delay aux, m = .request action delay aux ∧ action ≠ .nothing ∧
      (w.scheduler.request action delay aux).1 = none ∧
      r = ⟨action, delay, w.scheduler.device.now, aux⟩) ∨
    (w.scheduler.pending = some r ∧ ¬ w.Decides m ∧ ∀ call taken, ¬ w.Takes m call taken) := by
  cases m with
  | request action delay aux =>
    left
    refine ⟨action, delay, aux, rfl, ?_⟩
    simp only [step, leave] at h
    rcases w.scheduler.request_cases action delay aux with ⟨-, heq⟩ | ⟨hne, -, heq⟩ |
      ⟨hne, -, device, -, heq⟩ | ⟨-, -, error, device, -, heq⟩ <;> rw [heq] at h ⊢
    · cases h
    · exact ⟨hne, rfl, (Option.some.inj h).symm⟩
    · exact ⟨hne, rfl, (Option.some.inj h).symm⟩
    · cases h
  | resume call =>
    right
    simp only [Decides, Takes, reduceCtorEq, exists_false, false_or, Move.resume.injEq]
    cases hrest : w.rest call with
    | none =>
      simp only [step, hrest] at h
      refine ⟨h, ?_, ?_⟩
      · rintro ⟨_, rfl, hforget⟩
        rw [hrest] at hforget; cases hforget
      · rintro _ _ ⟨rfl, hlook, -⟩
        rw [hrest] at hlook; cases hlook
    | some rest =>
      simp only [step, hrest, leave] at h
      obtain ⟨hpending, hforget, htake⟩ := pending_next h
      refine ⟨hpending, ?_, ?_⟩
      · rintro ⟨_, rfl, hrest'⟩
        exact hforget (Option.some.inj (hrest.symm.trans hrest'))
      · rintro _ taken ⟨rfl, hlook, hdue⟩
        exact htake (Option.some.inj (hrest.symm.trans hlook)) taken hdue
  | wait =>
    right
    simp only [step] at h
    refine ⟨by split at h <;> exact h, ?_, ?_⟩ <;> simp [Decides, Takes]
  | _ => exact Or.inr ⟨h, by simp [Decides], by simp [Takes]⟩

/-- A move leaves the calls alone that it neither begins nor goes on with. -/
theorem rest_step_of_ne {call : Nat} (hmade : call ≠ w.made) (hm : m ≠ .resume call) :
    (w.step m).rest call = w.rest call := by
  cases m with
  | resume other =>
    have hother : call ≠ other := fun h => hm (by rw [h])
    simp only [step]
    split
    · exact rest_leave_of_ne hother
    · rfl
  | wait =>
    simp only [step]
    split
    · exact rest_leave_of_ne hmade
    · rfl
  | request => exact rest_leave_of_ne hmade
  | disarm => exact rest_leave_of_ne hmade
  | execute => exact rest_leave_of_ne hmade
  | _ => rfl

theorem rest_step_resume {call : Nat} {rest : Rest} (h : w.rest call = some rest) :
    (w.step (.resume call)).rest call = (rest.next w.scheduler).1 := by
  simp only [step, h, rest_leave_self]

/-- Where the rest of a call comes from: it is as before the move, or the call has just begun, or it
went on. -/
theorem rest_step_cases {call : Nat} {rest : Rest} (h : (w.step m).rest call = some rest) :
    w.rest call = some rest ∨
    (call = w.made ∧ ((∃ action delay aux, m = .request action delay aux ∧
        rest = .settle action delay (w.scheduler.request action delay aux).1) ∨
      (m = .disarm ∧ rest = .forget) ∨ rest = .look)) ∨
    ∃ old, m = .resume call ∧ w.rest call = some old ∧ (old.next w.scheduler).1 = some rest := by
  -- the call itself goes on
  by_cases hm : m = .resume call
  · subst hm
    cases hold : w.rest call with
    | none =>
      simp only [step, hold] at h
      exact absurd (hold.symm.trans h) (by simp)
    | some old =>
      rw [rest_step_resume hold] at h
      exact Or.inr (Or.inr ⟨old, rfl, rfl, h⟩)
  -- the call is the one that the move begins, if it begins one
  by_cases hmade : call = w.made
  · subst hmade
    cases m with
    | request action delay aux =>
      rw [step, rest_leave_self] at h
      exact Or.inr (Or.inl ⟨rfl, Or.inl ⟨action, delay, aux, rfl, (Option.some.inj h).symm⟩⟩)
    | disarm =>
      rw [step, rest_leave_self] at h
      exact Or.inr (Or.inl ⟨rfl, Or.inr (Or.inl ⟨rfl, (Option.some.inj h).symm⟩)⟩)
    | execute =>
      rw [step, rest_leave_self] at h
      exact Or.inr (Or.inl ⟨rfl, Or.inr (Or.inr (Option.some.inj h).symm)⟩)
    | wait =>
      simp only [step] at h
      split at h
      · rw [rest_leave_self] at h
        exact Or.inr (Or.inl ⟨rfl, Or.inr (Or.inr (Option.some.inj h).symm)⟩)
      · exact Or.inl h
    | resume other =>
      have hother : w.made ≠ other := fun h => hm (by rw [h])
      simp only [step] at h
      split at h
      · rw [rest_leave_of_ne hother] at h
        exact Or.inl h
      · exact Or.inl h
    | _ => exact Or.inl h
  · rw [rest_step_of_ne hmade hm] at h
    exact Or.inl h

theorem Fresh.step (h : w.Fresh) : (w.step m).Fresh := by
  intro call hcall
  rw [made_step] at hcall
  have hnone := h call (Nat.le_of_succ_le hcall)
  by_cases hm : m = .resume call
  · rw [hm, World.step, hnone]
    exact hnone
  · rw [rest_step_of_ne (by omega) hm, hnone]

/-- Only a look leaves an action to perform, and only a request that it has taken. -/
theorem next_perform {rest : Rest} {s : Scheduler} {taken : Request}
    (h : (rest.next s).1 = some (.perform taken)) : rest = .look ∧ s.look.1 = .due taken := by
  cases rest with
  | look =>
    refine ⟨rfl, ?_⟩
    simp only [Rest.next, Rest.ofLook] at h
    split at h <;> cases h
    assumption
  | calls left =>
    cases left with
    | nil => cases h
    | cons c left => simp only [Rest.next] at h; split at h <;> cases h
  | _ => cases h

/-- No call goes on to drop what is pending. -/
theorem next_ne_forget (rest : Rest) (s : Scheduler) : (rest.next s).1 ≠ some .forget := by
  intro h
  cases rest with
  | look => simp only [Rest.next, Rest.ofLook] at h; split at h <;> cases h
  | calls left =>
    cases left with
    | nil => cases h
    | cons c left => simp only [Rest.next] at h; split at h <;> cases h
  | _ => cases h

end World

/-- A world that moves for ever. -/
structure Run where
  device : Device
  move : Nat → Move

namespace Run

variable (run : Run)

/-- The world after a number of moves. -/
def world : Nat → World
  | 0 => World.start run.device
  | n + 1 => (world n).step (run.move n)

/-- The scheduler after a number of moves. -/
def scheduler (n : Nat) : Scheduler := (run.world n).scheduler

variable {run}

@[simp] theorem made_world (n : Nat) : (run.world n).made = n := by
  induction n with
  | zero => rfl
  | succ n ih => rw [world, World.made_step, ih]

theorem fresh_world (n : Nat) : (run.world n).Fresh := by
  induction n with
  | zero => exact fun _ _ => rfl
  | succ n ih => exact ih.step

theorem rest_eq_none {n call : Nat} (h : n ≤ call) : (run.world n).rest call = none :=
  fresh_world n call (by rwa [made_world])

theorem scheduler_request {n : Nat} {action : Action} {delay : UInt32} {aux : UInt8}
    (hmove : run.move n = .request action delay aux) :
    run.scheduler (n + 1) = ((run.scheduler n).request action delay aux).2 := by
  rw [scheduler, world, hmove]
  rfl

theorem scheduler_resume {n call : Nat} {rest : Rest} (hmove : run.move n = .resume call)
    (hrest : (run.world n).rest call = some rest) :
    run.scheduler (n + 1) = (rest.next (run.scheduler n)).2 := by
  rw [scheduler, world, hmove, World.step, hrest]
  rfl

end Run

end Firmware.Schedule
