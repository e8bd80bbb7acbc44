import Firmware.Proofs.Schedule.Rearming

/-!
# Requests that the timer refuses

A call that cannot have the timer started undoes in its critical section whatever it changed there, and
tells its caller only when it returns. By then others may have asked for something else.

* `request_eq_some_iff`: a call fails exactly if the timer refuses the start that the call asks for.
* `idle_step`: a scheduler that is idle stays so unless a request is accepted.
* `rest_of_request`: what a call says when it returns was settled in its critical section.
* `refusal_rolled_back`: a refused call leaves the scheduler idle, and does nothing to it afterwards.
-/

namespace Firmware.Schedule

namespace Scheduler

variable {s : Scheduler} {action : Action} {delay : UInt32} {error : TimerError}

/-- A call for the action has the timer started, and the timer refuses. -/
def Refuses (s : Scheduler) (action : Action) (delay : UInt32) (error : TimerError) : Prop :=
  action ≠ .nothing ∧ delay ≠ 0 ∧ (s.device.stop.start delay).1 = some error

theorem request_eq_some_iff (aux : UInt8) :
    (s.request action delay aux).1 = some error ↔ s.Refuses action delay error := by
  rw [Refuses, request]
  by_cases haction : action = .nothing
  · simp [haction]
  by_cases hdelay : delay = 0
  · simp [haction, hdelay]
  rcases start_cases delay s.device.stop with ⟨next, hstart, -⟩ | ⟨error', next, hstart, -⟩ <;>
    simp [haction, hdelay, hstart]

theorem idle_of_refuses (h : s.Refuses action delay error) (aux : UInt8) :
    (s.request action delay aux).2.Idle := by
  refine idle_request (Or.inr ?_)
  rw [(request_eq_some_iff aux).2 h]
  exact Option.some_ne_none error

end Scheduler

namespace Bench

variable {nest : List Step → Bench → Bench} {bench : Bench} {action : Action} {delay : UInt32}
  {aux : UInt8} {preempt : List Step} {error : TimerError}

theorem schedule_eq_rejected_iff :
    (bench.schedule nest action delay aux preempt).1 = .rejected error ↔
      bench.scheduler.Refuses action delay error := by
  rw [← Scheduler.request_eq_some_iff aux, schedule]
  rcases bench.scheduler.request action delay aux with ⟨failure, scheduler⟩
  cases failure <;> simp

/-- After a call that was refused there is what others have made of the scheduler since. -/
theorem schedule_of_refuses (h : bench.scheduler.Refuses action delay error) :
    (bench.schedule nest action delay aux preempt).2 =
      nest preempt { bench with scheduler := (bench.scheduler.request action delay aux).2 } := by
  have hfailure := (Scheduler.request_eq_some_iff aux).2 h
  simp only [schedule, hfailure, onScheduler, Scheduler.settle, reduceCtorEq, false_and, if_false]

end Bench

namespace World

variable {w : World} {m : Move}

theorem rest_step_request (w : World) (action : Action) (delay : UInt32) (aux : UInt8) :
    (w.step (.request action delay aux)).rest w.made =
      some (.settle action delay (w.scheduler.request action delay aux).1) := rest_leave_self

theorem next_of_pending_eq_none (rest : Rest) {s : Scheduler} (h : s.pending = none) :
    (rest.next s).2.pending = none ∧ (rest.next s).2.device.armed = s.device.armed := by
  by_cases hsteers : rest.Steers
  · cases rest with
    | forget => exact ⟨rfl, rfl⟩
    | look =>
      rw [Rest.next, Scheduler.look, h]
      exact ⟨h, rfl⟩
    | rearm seen remaining =>
      have hne : s.pending ≠ some seen := by
        rw [h]
        exact (Option.some_ne_none seen).symm
      rw [Rest.next, Scheduler.rearm_of_ne hne]
      exact ⟨h, rfl⟩
    | settle | perform | calls => exact hsteers.elim
  · obtain ⟨hpending, harmed⟩ := next_of_not_steers (s := s) hsteers
    exact ⟨hpending.trans h, harmed⟩

/-- **What is idle stays idle** in every move in which no request is accepted. A wake that was under way
finds nothing, and a re-arm that was under way does not start the timer. -/
theorem idle_step (h : w.scheduler.Idle)
    (hm : ∀ action delay aux, m = .request action delay aux → action ≠ .nothing →
      (w.scheduler.request action delay aux).1 ≠ none) : (w.step m).scheduler.Idle := by
  obtain ⟨hpending, harmed⟩ := h
  cases m with
  | request action delay aux =>
    exact Scheduler.idle_request (or_iff_not_imp_left.2 (hm action delay aux rfl))
  | disarm => exact ⟨hpending, rfl⟩
  | resume call =>
    cases hrest : w.rest call with
    | none =>
      simp only [step, hrest]
      exact ⟨hpending, harmed⟩
    | some rest =>
      obtain ⟨hnone, hsame⟩ := next_of_pending_eq_none rest hpending
      simp only [step, hrest]
      exact ⟨hnone, hsame.trans harmed⟩
  | wait =>
    simp only [step]
    split <;> exact ⟨hpending, harmed⟩
  | expire =>
    simp only [step, World.onDevice, if_pos harmed]
    exact ⟨hpending, harmed⟩
  | _ => exact ⟨hpending, harmed⟩

end World

namespace Run

variable {run : Run} {i k n : Nat} {action : Action} {delay : UInt32} {aux : UInt8}
  {error : TimerError}

theorem idle_until_requested (h : (run.scheduler k).Idle) (hkn : k ≤ n)
    (hquiet : ∀ j r, k ≤ j → j < n → ¬ run.Requests j r) : (run.scheduler n).Idle := by
  induction hkn with
  | refl => exact h
  | @step n hkn ih =>
    refine World.idle_step (ih fun j r hkj hjn => hquiet j r hkj (Nat.lt_succ_of_lt hjn)) ?_
    intro action delay aux hmove hne hfailure
    exact hquiet n ⟨action, delay, (run.scheduler n).device.now, aux⟩ hkn n.lt_succ_self
      ⟨hmove, hne, hfailure, rfl⟩

/-- What a call has left to do after its critical section: to tell what that came to. -/
theorem rest_of_request {rest : Rest} (hmove : run.move i = .request action delay aux) (hin : i < n)
    (hrest : (run.world n).rest i = some rest) :
    rest = .settle action delay ((run.scheduler i).request action delay aux).1 := by
  induction hin generalizing rest with
  | refl =>
    have hbegun := (run.world i).rest_step_request action delay aux
    rw [made_world, ← hmove] at hbegun
    exact Option.some.inj (hrest.symm.trans hbegun)
  | @step n hin ih =>
    rcases World.rest_step_cases hrest with hrest | ⟨hmade, -⟩ | ⟨old, -, hold, hnext⟩
    · exact ih hrest
    · rw [made_world] at hmade
      exact absurd hmade (Nat.ne_of_lt hin)
    · rw [ih hold] at hnext
      cases hnext

variable (run) in
/-- In move `n` the call that began in move `i` returns, with an error if the timer refused. -/
def Returns (i n : Nat) (failure : Option TimerError) : Prop :=
  run.move n = .resume i ∧ ∃ action delay,
    (run.world n).rest i = some (.settle action delay failure)

/-- A call returns what its critical section came to, whatever has happened since. -/
theorem Returns.failure_eq {failure : Option TimerError} (h : run.Returns i n failure)
    (hmove : run.move i = .request action delay aux) :
    failure = ((run.scheduler i).request action delay aux).1 := by
  obtain ⟨-, action', delay', hrest⟩ := h
  exact (Rest.settle.inj (rest_of_request hmove (lt_of_rest hrest) hrest)).2.2

/-- A call that was refused changes nothing any more. -/
theorem scheduler_resume_of_refuses (hmove : run.move i = .request action delay aux)
    (hrefuses : (run.scheduler i).Refuses action delay error) (hin : i < n)
    (hresume : run.move n = .resume i) : run.scheduler (n + 1) = run.scheduler n := by
  cases hrest : (run.world n).rest i with
  | none =>
    rw [scheduler, world, hresume, World.step, hrest]
    rfl
  | some rest =>
    rw [scheduler_resume hresume hrest, rest_of_request hmove hin hrest,
      (Scheduler.request_eq_some_iff aux).2 hrefuses]
    rfl

variable (run) in
/-- The call of move `i` has been undone. -/
structure RolledBack (i : Nat) : Prop where
  /-- At the end of its critical section nothing is pending, and the timer is not armed. -/
  undone : (run.scheduler (i + 1)).Idle
  /-- That stays so until another request is accepted. -/
  idle : ∀ n, i < n → (∀ j r, i < j → j < n → ¬ run.Requests j r) → (run.scheduler n).Idle
  /-- Whoever is shown the time left, reading the state at one moment and the clock at another, is shown
  it of a request that another call made, and made since if the state is read since. -/
  shown : ∀ n m time action,
    Scheduler.remaining ⟨(run.scheduler n).pending, (run.scheduler m).device⟩ = some (time, action) →
      ∃ j r, j ≠ i ∧ run.Requests j r ∧ j < n ∧ (i < n → i < j) ∧ r.action = action ∧
        time = min (r.deadline - (run.scheduler m).device.now) Scheduler.delayLimit
  /-- A wake in which the worker looks before another request is accepted performs nothing. -/
  unperformed : ∀ n call, run.Looks n call → i < n → (∀ j r, i < j → j < n → ¬ run.Requests j r) →
    ∀ p action aux, ¬ run.Performs p call action aux
  /-- What others have asked for before the call returns is as it was, and so is the timer. -/
  returned : ∀ n, i < n → run.move n = .resume i → run.scheduler (n + 1) = run.scheduler n

theorem not_requests_of_refuses (hmove : run.move i = .request action delay aux)
    (hrefuses : (run.scheduler i).Refuses action delay error) (r : Request) :
    ¬ run.Requests i r := by
  rintro ⟨hmove', -, hfailure, -⟩
  obtain ⟨haction, hdelay, haux⟩ := Move.request.inj (hmove.symm.trans hmove')
  have hrefused := (Scheduler.request_eq_some_iff aux).2 hrefuses
  rw [haction, hdelay, haux, hfailure] at hrefused
  cases hrefused

/-- What is pending was never asked for by a call that was refused, and what is pending after such a call
was asked for after it. -/
theorem requested_elsewhere (hmove : run.move i = .request action delay aux)
    (hrefuses : (run.scheduler i).Refuses action delay error) {r : Request}
    (hpending : (run.scheduler n).pending = some r) :
    ∃ j, j ≠ i ∧ run.Requests j r ∧ j < n ∧ (i < n → i < j) := by
  obtain ⟨j, hjn, hrequests, hsince⟩ := origin_of_pending hpending
  have hji : j ≠ i := by
    rintro rfl
    exact not_requests_of_refuses hmove hrefuses r hrequests
  refine ⟨j, hji, hrequests, hjn, fun hin => ?_⟩
  by_contra hle
  have hdecides : run.Decides i := Or.inl ⟨action, delay, aux, hmove⟩
  exact (hsince i (by omega) hin).1 hdecides

theorem rolledBack_of_refuses (hmove : run.move i = .request action delay aux)
    (hrefuses : (run.scheduler i).Refuses action delay error) : run.RolledBack i := by
  have hundone : (run.scheduler (i + 1)).Idle := by
    rw [scheduler_request hmove]
    exact Scheduler.idle_of_refuses hrefuses aux
  have hidle : ∀ n, i < n → (∀ j r, i < j → j < n → ¬ run.Requests j r) →
      (run.scheduler n).Idle := fun n hin hquiet =>
    idle_until_requested hundone hin fun j r hij hjn => hquiet j r hij hjn
  refine ⟨hundone, hidle, ?_, ?_, ?_⟩
  · intro n m time action' hshown
    simp only [Scheduler.remaining, Option.map_eq_some_iff, Prod.mk.injEq] at hshown
    obtain ⟨r, hpending, htime, haction⟩ := hshown
    obtain ⟨j, hji, hrequests, hjn, hafter⟩ := requested_elsewhere hmove hrefuses hpending
    exact ⟨j, r, hji, hrequests, hjn, hafter, haction, htime.symm⟩
  · intro n call hlooks hin hquiet p action' aux' hperforms
    obtain ⟨-, taken, -, -, hrest⟩ := hperforms
    obtain ⟨t, -, htakes⟩ := taken_of_perform hrest
    obtain rfl : t = n := htakes.looks.unique hlooks
    have hnone := (hidle t hin hquiet).1
    rw [htakes.pending.1] at hnone
    cases hnone
  · exact fun n => scheduler_resume_of_refuses hmove hrefuses

/-- **A call that the timer refuses is undone.** It fails exactly if it is to start the timer and the
timer refuses, and it says so whatever happens before it returns. It leaves nothing pending and no timer
behind, in every state of the scheduler; no one is ever shown what it asked for, nothing is performed
until another request is accepted, and what others ask for in the meantime is left as it is. -/
theorem refusal_rolled_back :
    (∀ (nest : List Step → Bench → Bench) (bench : Bench) (action : Action) (delay : UInt32)
      (aux : UInt8) (preempt : List Step) (error : TimerError),
      ((bench.schedule nest action delay aux preempt).1 = .rejected error ↔
        bench.scheduler.Refuses action delay error) ∧
      (bench.scheduler.Refuses action delay error →
        (bench.scheduler.request action delay aux).2.Idle ∧
        (bench.schedule nest action delay aux preempt).2 =
          nest preempt { bench with scheduler := (bench.scheduler.request action delay aux).2 })) ∧
    ∀ (run : Run) (i : Nat) (action : Action) (delay : UInt32) (aux : UInt8) (error : TimerError),
      run.move i = .request action delay aux →
      (∀ n failure, run.Returns i n failure →
        (failure = some error ↔ (run.scheduler i).Refuses action delay error)) ∧
      ((run.scheduler i).Refuses action delay error → run.RolledBack i) := by
  refine ⟨fun nest bench action delay aux preempt error => ⟨?_, fun hrefuses => ?_⟩,
    fun run i action delay aux error hmove => ⟨fun n failure hreturns => ?_, ?_⟩⟩
  · exact Bench.schedule_eq_rejected_iff
  · exact ⟨Scheduler.idle_of_refuses hrefuses aux, Bench.schedule_of_refuses hrefuses⟩
  · rw [hreturns.failure_eq hmove, Scheduler.request_eq_some_iff]
  · exact rolledBack_of_refuses hmove

/-- A request is pending when another is refused. Before the refused call returns the worker wakes up, and
a third request is made. -/
def refused : Run where
  device := Device.atRest ⟨0, 1000⟩
  move n := [.request .reboot 500 0, .resume 0, .setOutcomes [some (.rejected 33)],
    .request .reconnect 100 0, .execute, .resume 4, .request .clearAndReconnect 50 0,
    .resume 3].getD n .wake

theorem refused_undone : (refused.scheduler 3).pending = some ⟨.reboot, 500, 0, 0⟩ ∧
    refused.Returns 3 7 (some (.rejected 33)) ∧ (refused.scheduler 4).Idle ∧
    (∀ p action aux, ¬ refused.Performs p 4 action aux) ∧
    refused.scheduler 8 = refused.scheduler 7 ∧
    (refused.scheduler 7).pending = some ⟨.clearAndReconnect, 50, 0, 0⟩ ∧
    (refused.scheduler 7).device.armed = some 50 := by
  have hreturns : refused.Returns 3 7 (some (.rejected 33)) := ⟨rfl, .reconnect, 100, rfl⟩
  obtain ⟨hreturned, hundone⟩ :=
    refusal_rolled_back.2 refused 3 .reconnect 100 0 (.rejected 33) rfl
  have hrolled := hundone ((hreturned 7 _ hreturns).1 rfl)
  have hquiet : ∀ j r, 3 < j → j < 5 → ¬ refused.Requests j r := by
    intro j r h3 h5 hrequests
    obtain rfl : j = 4 := by omega
    cases hrequests.1
  exact ⟨rfl, hreturns, hrolled.undone, hrolled.unperformed 5 4 ⟨rfl, rfl⟩ (by decide) hquiet,
    hrolled.returned 7 (by decide) rfl, rfl, rfl⟩

end Run

end Firmware.Schedule
