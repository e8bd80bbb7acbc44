import Firmware.Proofs.Schedule.Interleaving

/-!
# No request is stranded

While a request is pending, something is on its way that brings the worker to it: the timer is
armed, a wake is outstanding, or some call has still to wake the worker, to look, or to re-arm the
timer for this very request.

* `attended_step`: every move keeps a pending request attended, unless it is about to be dropped.
* `pending_attended`: so it is in every run without a fresh start in the middle, and where no call
  is under way, no wake is outstanding and the timer is disarmed, nothing is pending.
-/

namespace Firmware.Schedule

/-- What a call has still to do brings the worker to a request: it wakes the worker, looks at what
is pending, or re-arms the timer for the request. -/
def Rest.Attends (r : Request) : Rest → Prop
  | .settle action delay failure => action ≠ .nothing ∧ delay = 0 ∧ failure = none
  | .look => True
  | .rearm seen _ => seen = r
  | _ => False

namespace World

/-- Something is on its way that brings the worker to a request. -/
def Attended (w : World) (r : Request) : Prop :=
  w.scheduler.device.armed ≠ none ∨ w.scheduler.device.notified = true ∨
    ∃ call rest, w.rest call = some rest ∧ rest.Attends r

/-- A fresh start is about to drop what is pending. -/
def Restarting (w : World) : Prop := ∃ call, w.rest call = some .forget

variable {w : World} {m : Move} {r : Request}

theorem attended_made (rest : Rest) {s : Scheduler} (h : rest.Attends r) (call : Nat) :
    (w.leave call (some rest) s).Attended r :=
  Or.inr (Or.inr ⟨call, rest, rest_leave_self, h⟩)

/-- The hardware keeps a request attended if it disarms no timer and takes no wake. -/
theorem Attended.onDevice (h : w.Attended r) {change : Device → Device}
    (harmed : (change w.scheduler.device).armed = w.scheduler.device.armed)
    (hnotified : (change w.scheduler.device).notified = w.scheduler.device.notified) :
    (w.onDevice change).Attended r := by
  unfold Attended
  simp only [World.onDevice]
  rw [harmed, hnotified]
  exact h

/-- A call that did not attend to a request leaves it to others. -/
theorem Attended.leave (h : w.Attended r) {call : Nat} {old : Rest} {rest : Option Rest}
    {s : Scheduler} (hold : w.rest call = some old) (hnot : ¬ old.Attends r)
    (harmed : s.device.armed = w.scheduler.device.armed)
    (hnotified : s.device.notified = w.scheduler.device.notified) :
    (w.leave call rest s).Attended r := by
  rcases h with h | h | ⟨other, attending, hother, hattends⟩
  · exact Or.inl (by simpa only [World.leave, harmed] using h)
  · exact Or.inr (Or.inl (by simpa only [World.leave, hnotified] using h))
  · have hne : other ≠ call := by
      rintro rfl
      rw [hold] at hother
      exact hnot (Option.some.inj hother ▸ hattends)
    exact Or.inr (Or.inr ⟨other, attending, by rwa [rest_leave_of_ne hne], hattends⟩)

/-- Going on with a call keeps a pending request attended. -/
theorem attended_resume {call : Nat} {old : Rest} (hold : w.rest call = some old)
    (hafter : (old.next w.scheduler).2.pending = some r) (h : w.Attended r) :
    (w.leave call (old.next w.scheduler).1 (old.next w.scheduler).2).Attended r := by
  obtain ⟨hpending, hforget, htake⟩ := pending_next hafter
  cases old with
  | settle action delay failure =>
    simp only [Rest.next, Scheduler.settle]
    split
    · exact Or.inr (Or.inl rfl)
    next hquiet => exact h.leave hold (fun ha => hquiet ⟨ha.2.2, ha.1, ha.2.1⟩) rfl rfl
  | forget => exact absurd rfl hforget
  | look =>
    -- the request is still pending, so it was early and is about to be re-armed
    rcases w.scheduler.look_cases with ⟨hnone, -⟩ | ⟨seen, hseen, -, -, heq⟩ | ⟨taken, -, -, heq⟩
    · rw [hnone] at hpending; cases hpending
    · have hr : seen = r := Option.some.inj (hseen.symm.trans hpending)
      rw [Rest.next, heq]
      exact attended_made (.rearm seen _) hr call
    · exact absurd (by rw [heq]) (htake rfl taken)
  | rearm seen remaining =>
    rw [Rest.next] at hafter ⊢
    rcases w.scheduler.rearm_cases seen remaining with ⟨-, device, harmed, heq⟩ |
      ⟨-, device, -, heq⟩ | ⟨hne, heq⟩ <;> rw [heq] at hafter ⊢
    · exact Or.inl (by simp only [World.leave, harmed, ne_eq, reduceCtorEq, not_false_eq_true])
    · cases hafter
    · refine h.leave hold ?_ rfl rfl
      rintro rfl
      exact hne hpending
  | perform taken => exact h.leave hold id rfl rfl
  | calls left => cases left <;> exact h.leave hold id rfl rfl

/-- A move that neither begins nor goes on with a fresh start leaves those alone that are under
way. -/
theorem Restarting.step (hmade : w.rest w.made = none) (hdecides : ¬ w.Decides m)
    (h : w.Restarting) : (w.step m).Restarting := by
  obtain ⟨call, hcall⟩ := h
  have hne : call ≠ w.made := by
    rintro rfl
    rw [hmade] at hcall
    cases hcall
  have hm : m ≠ .resume call := fun h => hdecides (Or.inr ⟨call, h, hcall⟩)
  exact ⟨call, by rw [rest_step_of_ne hne hm, hcall]⟩

/-- **Every move keeps a pending request attended**, unless a fresh start is about to drop it. -/
theorem attended_step (hmade : w.rest w.made = none)
    (h : ∀ r, w.scheduler.pending = some r → w.Attended r ∨ w.Restarting)
    (hr : (w.step m).scheduler.pending = some r) :
    (w.step m).Attended r ∨ (w.step m).Restarting := by
  rcases pending_step hr with ⟨action, delay, aux, rfl, haction, -, -⟩ | ⟨hpending, hdecides, -⟩
  -- the move made the request
  · left
    simp only [step]
    rcases w.scheduler.request_cases action delay aux with ⟨hnothing, -⟩ | ⟨-, hzero, heq⟩ |
      ⟨-, -, device, harmed, heq⟩ | ⟨-, -, error, device, -, heq⟩
    · exact absurd hnothing haction
    · rw [heq]
      exact attended_made (.settle action delay none) ⟨haction, hzero, rfl⟩ _
    · rw [heq]
      exact Or.inl (by simp only [World.leave, harmed, ne_eq, reduceCtorEq, not_false_eq_true])
    · simp only [step, heq] at hr
      cases hr
  -- the request was pending before the move
  rcases h r hpending with hatt | hrestart
  · cases m with
    | request action delay aux => exact absurd (Or.inl ⟨action, delay, aux, rfl⟩) hdecides
    | disarm => exact Or.inr ⟨w.made, rest_leave_self⟩
    | execute => exact Or.inl (attended_made .look trivial _)
    | wait =>
      left
      simp only [step]
      split
      · exact attended_made .look trivial _
      · exact hatt.onDevice rfl rfl
    | resume call =>
      left
      cases hold : w.rest call with
      | none =>
        simp only [step, hold]
        exact hatt.onDevice rfl rfl
      | some old =>
        simp only [step, hold] at hr ⊢
        exact attended_resume hold hr hatt
    | expire =>
      left
      by_cases harmed : w.scheduler.device.armed = none
      · exact hatt.onDevice (by rw [if_pos harmed]) (by rw [if_pos harmed])
      · right; left
        simp only [step, World.onDevice, if_neg harmed, Device.notify]
        rfl
    | wake => exact Or.inl (Or.inr (Or.inl rfl))
    | _ => exact Or.inl (hatt.onDevice rfl rfl)
  · exact Or.inr (hrestart.step hmade hdecides)

/-- Only a fresh start that begins has something to drop. -/
theorem restarting_of_step (hm : m ≠ .disarm) (h : (w.step m).Restarting) : w.Restarting := by
  obtain ⟨call, hcall⟩ := h
  rcases rest_step_cases hcall with h | ⟨-, ⟨_, _, _, -, hrest⟩ | ⟨hdisarm, -⟩ | hrest⟩ |
    ⟨old, -, -, hnext⟩
  · exact ⟨call, h⟩
  · cases hrest
  · exact absurd hdisarm hm
  · cases hrest
  · exact absurd hnext (next_ne_forget old _)

end World

namespace Run

variable {run : Run}

/-- In every run, fresh starts in the middle included, a pending request is attended or about to be
dropped. -/
theorem attended_world (n : Nat) {r : Request} (h : (run.scheduler n).pending = some r) :
    (run.world n).Attended r ∨ (run.world n).Restarting := by
  induction n generalizing r with
  | zero => cases h
  | succ n ih =>
    refine World.attended_step ?_ (fun _ => ih) h
    rw [made_world]
    exact rest_eq_none (Nat.le_refl n)

theorem not_restarting (hinit : ∀ n, run.move n ≠ .disarm) (n : Nat) :
    ¬ (run.world n).Restarting := by
  induction n with
  | zero => rintro ⟨call, h⟩; cases h
  | succ n ih => exact fun h => ih (World.restarting_of_step (hinit n) h)

/-- Where no call is under way, no wake is outstanding and the timer is disarmed, nothing is
pending. -/
theorem pending_eq_none {n : Nat} (hquiet : ∀ call, (run.world n).rest call = none)
    (hnotified : (run.scheduler n).device.notified = false)
    (harmed : (run.scheduler n).device.armed = none) : (run.scheduler n).pending = none := by
  by_contra hsome
  obtain ⟨r, hr⟩ := Option.ne_none_iff_exists'.1 hsome
  rcases attended_world n hr with (h | h | ⟨call, rest, hrest, -⟩) | ⟨call, hrest⟩
  · exact h harmed
  · rw [show (run.world n).scheduler.device.notified = false from hnotified] at h
    cases h
  · rw [hquiet call] at hrest
    cases hrest
  · rw [hquiet call] at hrest
    cases hrest

/-- **No pending request is ever stranded.** The timer is armed, or a wake is outstanding, or a
request without delay has still to wake the worker, or the worker is back from a wait and has still
to look, or it has still to re-arm the timer for the pending request. So where no call is under way,
no wake is outstanding and the timer is disarmed, nothing is pending. -/
theorem pending_attended (hinit : ∀ n, run.move n ≠ .disarm) (n : Nat) :
    (∀ r, (run.scheduler n).pending = some r →
      (run.scheduler n).device.armed ≠ none ∨
      (run.scheduler n).device.notified = true ∨
      (∃ call action, action ≠ .nothing ∧
        (run.world n).rest call = some (.settle action 0 none)) ∨
      (∃ call, (run.world n).rest call = some .look) ∨
      ∃ call remaining, (run.world n).rest call = some (.rearm r remaining)) ∧
    ((∀ call, (run.world n).rest call = none) → (run.scheduler n).device.notified = false →
      (run.scheduler n).device.armed = none → (run.scheduler n).pending = none) := by
  refine ⟨fun r hr => ?_, pending_eq_none⟩
  have hattended := (attended_world n hr).resolve_right (not_restarting hinit n)
  rcases hattended with h | h | ⟨call, rest, hrest, hattends⟩
  · exact Or.inl h
  · exact Or.inr (Or.inl h)
  · right; right
    cases rest with
    | settle action delay failure =>
      obtain ⟨haction, rfl, rfl⟩ := hattends
      exact Or.inl ⟨call, action, haction, hrest⟩
    | look => exact Or.inr (Or.inl ⟨call, hrest⟩)
    | rearm seen remaining =>
      obtain rfl : seen = r := hattends
      exact Or.inr (Or.inr ⟨call, remaining, hrest⟩)
    | _ => cases hattends

/-- A timer that ran out too early has woken the worker, which has looked and not yet re-armed
it. -/
def tooEarly : Run where
  device := Device.atRest ⟨0, 1000⟩
  move n := [.request .reconnect 50 0, .expire, .wait, .resume 2].getD n (.setClock ⟨7, 1000⟩)

theorem tooEarly_attended : (∀ n, tooEarly.move n ≠ .disarm) ∧
    (tooEarly.scheduler 4).pending = some ⟨.reconnect, 50, 0, 0⟩ ∧
    ((tooEarly.scheduler 4).device.armed ≠ none ∨
      (tooEarly.scheduler 4).device.notified = true ∨
      (∃ call action, action ≠ .nothing ∧
        (tooEarly.world 4).rest call = some (.settle action 0 none)) ∨
      (∃ call, (tooEarly.world 4).rest call = some .look) ∨
      ∃ call remaining, (tooEarly.world 4).rest call =
        some (.rearm ⟨.reconnect, 50, 0, 0⟩ remaining)) := by
  have hinit : ∀ n, tooEarly.move n ≠ .disarm := by
    intro n
    rcases n with _ | _ | _ | _ | n <;> exact Move.noConfusion
  exact ⟨hinit, rfl, (pending_attended hinit 4).1 _ rfl⟩

end Run

end Firmware.Schedule
