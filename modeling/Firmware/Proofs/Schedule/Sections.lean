import Firmware.Schedule.Scheduler

/-!
# What the critical sections of the scheduler do

Each section in closed form, with all that it can come to.

* `request_cases`: a call cancels, is accepted, or is refused by the timer.
* `request_accepted`, `idle_request`: what a call leaves that is accepted, and what any other leaves.
* `look_cases`: the worker sees nothing, a request that is early, or takes one that is due.
* `look_eq_due_iff`, `look_eq_early_iff`: it takes a request exactly if that is pending and due, and
  finds it early exactly if that is pending and not due.
* `rearm_cases`: a re-arm starts the timer, drops the request, or leaves all as it is.
-/

namespace Firmware.Schedule.Scheduler

/-- A start arms the timer or is refused. -/
theorem start_cases (delay : UInt32) (device : Device) :
    (∃ next, device.start delay = (none, next) ∧ next.armed = some (device.expiry delay)) ∨
      ∃ error next, device.start delay = (some error, next) ∧ next.armed = device.armed := by
  rcases hstart : device.start delay with ⟨failure, next⟩
  cases failure with
  | none => exact Or.inl ⟨next, rfl, Device.start_armed hstart⟩
  | some error => exact Or.inr ⟨error, next, rfl, (Device.start_failed hstart).2.1⟩

/-- **A call in closed form.** -/
theorem request_cases (action : Action) (delay : UInt32) (aux : UInt8) (s : Scheduler) :
    (action = .nothing ∧ s.request action delay aux = (none, ⟨none, s.device.stop⟩)) ∨
    (action ≠ .nothing ∧ delay = 0 ∧
      s.request action delay aux =
        (none, ⟨some ⟨action, delay, s.device.now, aux⟩, s.device.stop⟩)) ∨
    (action ≠ .nothing ∧ delay ≠ 0 ∧ ∃ device, device.armed = some (s.device.expiry delay) ∧
      s.request action delay aux = (none, ⟨some ⟨action, delay, s.device.now, aux⟩, device⟩)) ∨
    (action ≠ .nothing ∧ delay ≠ 0 ∧ ∃ error device, device.armed = none ∧
      s.request action delay aux = (some error, ⟨none, device⟩)) := by
  by_cases haction : action = .nothing
  · left
    exact ⟨haction, by rw [request, if_pos haction]⟩
  by_cases hdelay : delay = 0
  · right; left
    refine ⟨haction, hdelay, ?_⟩
    rw [request, if_neg haction, if_pos hdelay]
    rfl
  right; right
  rcases start_cases delay s.device.stop with ⟨next, hstart, harmed⟩ | ⟨error, next, hstart, harmed⟩
  · left
    refine ⟨haction, hdelay, next, harmed, ?_⟩
    rw [request, if_neg haction, if_neg hdelay, hstart]
    rfl
  · right
    refine ⟨haction, hdelay, error, next, harmed, ?_⟩
    rw [request, if_neg haction, if_neg hdelay, hstart]

/-- Nothing is pending, and the timer is not armed. -/
def Idle (s : Scheduler) : Prop := s.pending = none ∧ s.device.armed = none

section Request

variable {s : Scheduler} {action : Action} {delay : UInt32} {aux : UInt8}

/-- A call that is accepted leaves its request pending, with the timer armed for it if it is to be
performed later. -/
theorem request_accepted (haction : action ≠ .nothing)
    (h : (s.request action delay aux).1 = none) :
    (s.request action delay aux).2.pending = some ⟨action, delay, s.device.now, aux⟩ ∧
      (s.request action delay aux).2.device.armed =
        if delay = 0 then none else some (s.device.expiry delay) := by
  rcases s.request_cases action delay aux with ⟨hnothing, -⟩ | ⟨-, hzero, heq⟩ |
    ⟨-, hdelay, device, harmed, heq⟩ | ⟨-, -, error, device, -, heq⟩
  · exact absurd hnothing haction
  · rw [heq, if_pos hzero]
    exact ⟨rfl, rfl⟩
  · rw [heq, if_neg hdelay]
    exact ⟨rfl, harmed⟩
  · rw [heq] at h
    cases h

/-- A call that cancels or is refused leaves nothing pending, not even what was pending before, and no
timer. -/
theorem idle_request (h : action = .nothing ∨ (s.request action delay aux).1 ≠ none) :
    (s.request action delay aux).2.Idle := by
  rcases s.request_cases action delay aux with ⟨-, heq⟩ | ⟨haction, -, heq⟩ |
    ⟨haction, -, device, -, heq⟩ | ⟨-, -, error, device, harmed, heq⟩ <;> rw [heq] at h ⊢
  · exact ⟨rfl, rfl⟩
  · exact absurd rfl (h.resolve_left haction)
  · exact absurd rfl (h.resolve_left haction)
  · exact ⟨rfl, harmed⟩

end Request

/-- **A look in closed form.** -/
theorem look_cases (s : Scheduler) :
    (s.pending = none ∧ s.look = (.nothing, s)) ∨
    (∃ request, s.pending = some request ∧ request.delay ≠ 0 ∧ s.device.now < request.deadline ∧
      s.look = (.early request (request.deadline - s.device.now), s)) ∨
    (∃ request, s.pending = some request ∧
      (request.delay = 0 ∨ request.deadline ≤ s.device.now) ∧
      s.look = (.due request, { s with pending := none })) := by
  cases hpending : s.pending with
  | none =>
    left
    exact ⟨rfl, by rw [look, hpending]⟩
  | some request =>
    right
    by_cases hearly : request.delay ≠ 0 ∧ s.device.now < request.deadline
    · left
      refine ⟨request, rfl, hearly.1, hearly.2, ?_⟩
      simp only [look, hpending, if_pos hearly]
    · right
      refine ⟨request, rfl, ?_, by simp only [look, hpending, if_neg hearly]⟩
      by_cases hzero : request.delay = 0
      · exact Or.inl hzero
      · exact Or.inr (Nat.le_of_not_lt fun hlt => hearly ⟨hzero, hlt⟩)

/-- A look takes a request if and only if it is pending and due. -/
theorem look_eq_due_iff {s : Scheduler} {r : Request} :
    s.look.1 = .due r ↔ s.pending = some r ∧ (r.delay = 0 ∨ r.deadline ≤ s.device.now) := by
  rcases s.look_cases with ⟨hnone, heq⟩ | ⟨seen, hseen, hdelay, hearly, heq⟩ |
    ⟨taken, htaken, hdue, heq⟩ <;> rw [heq]
  · simp [hnone]
  · refine ⟨(nomatch ·), fun ⟨hpending, hdue⟩ => ?_⟩
    obtain rfl : seen = r := Option.some.inj (hseen.symm.trans hpending)
    exact absurd hdue (not_or.2 ⟨hdelay, Nat.not_le_of_lt hearly⟩)
  · constructor
    · intro h
      cases h
      exact ⟨htaken, hdue⟩
    · intro h
      obtain rfl : taken = r := Option.some.inj (htaken.symm.trans h.1)
      rfl

/-- A look finds a request early if and only if that is pending with a delay and is not due. -/
theorem look_eq_early_iff {s : Scheduler} {r : Request} {remaining : Nat} :
    s.look.1 = .early r remaining ↔ s.pending = some r ∧ r.delay ≠ 0 ∧
      s.device.now < r.deadline ∧ remaining = r.deadline - s.device.now := by
  rcases s.look_cases with ⟨hnone, heq⟩ | ⟨seen, hseen, hdelay, hearly, heq⟩ |
    ⟨taken, htaken, hdue, heq⟩ <;> rw [heq]
  · simp [hnone]
  · constructor
    · intro h
      cases h
      exact ⟨hseen, hdelay, hearly, rfl⟩
    · rintro ⟨hpending, -, -, rfl⟩
      obtain rfl : seen = r := Option.some.inj (hseen.symm.trans hpending)
      rfl
  · refine ⟨(nomatch ·), fun ⟨hpending, hdelay, hearly, _⟩ => ?_⟩
    obtain rfl : taken = r := Option.some.inj (htaken.symm.trans hpending)
    exact absurd hdue (not_or.2 ⟨hdelay, Nat.not_le_of_lt hearly⟩)

/-- **A re-arm in closed form.** -/
theorem rearm_cases (seen : Request) (remaining : Nat) (s : Scheduler) :
    (s.pending = some seen ∧ ∃ device, device.armed = some (s.device.expiry (delayOf remaining)) ∧
      s.rearm seen remaining = ⟨some seen, device⟩) ∨
    (s.pending = some seen ∧ ∃ device, device.armed = s.device.armed ∧
      s.rearm seen remaining = ⟨none, device⟩) ∨
    (s.pending ≠ some seen ∧ s.rearm seen remaining = s) := by
  by_cases hseen : s.pending = some seen
  · rcases start_cases (delayOf remaining) s.device with
      ⟨next, hstart, harmed⟩ | ⟨error, next, hstart, harmed⟩
    · left
      exact ⟨hseen, next, harmed, by rw [rearm, if_pos hseen, hstart, ← hseen]⟩
    · right; left
      exact ⟨hseen, next, harmed, by rw [rearm, if_pos hseen, hstart]⟩
  · right; right
    exact ⟨hseen, rearm_of_ne hseen⟩

end Firmware.Schedule.Scheduler
