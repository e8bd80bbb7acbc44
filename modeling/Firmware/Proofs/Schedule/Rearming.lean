import Firmware.Proofs.Schedule.Countdown

/-!
# Between the look and the re-arm

A worker that wakes too early looks at the pending request in one critical section and re-arms the
timer in another. In between others may ask for something else, and time may pass. The worker knows the
request that it has seen by its fields, and the time that was left by the clock at its look.

* `step_of_quiet`: a move that asks for nothing and does no part of a wake keeps what is pending.
* `left_cases`: a call leaves what it asked for, or an idle scheduler.
* `newer_request_kept`: a call that came in between has the last word, unless what it asked for equals
  in every field, and in the moment, what the worker saw.
* `twin_dropped`: a request that does equal it is lost where the re-arm fails.
* `rearm_postpones`: the timer that is started runs out as much too late as time passed in between.
* `late_rearm_overshoots`: so it can run out after the request is due.
-/

namespace Firmware.Schedule

/-- What a call has still to do may change what is pending or arm the timer. -/
def Rest.Steers : Rest → Prop
  | .forget | .look | .rearm .. => True
  | _ => False

namespace World

variable {w : World} {m : Move}

/-- In the move nothing is asked for, and neither a wake of the worker nor a fresh start goes on with
what is pending. Calls may return, actions be performed, the timer run out and the clock be set. -/
def Quiet (w : World) (m : Move) : Prop :=
  (∀ action delay aux, m ≠ .request action delay aux) ∧ m ≠ .disarm ∧
    ∀ call rest, m = .resume call → w.rest call = some rest → ¬ rest.Steers

theorem next_of_not_steers {rest : Rest} {s : Scheduler} (h : ¬ rest.Steers) :
    (rest.next s).2.pending = s.pending ∧ (rest.next s).2.device.armed = s.device.armed := by
  cases rest with
  | settle action delay failure =>
    simp only [Rest.next, Scheduler.settle]
    split <;> exact ⟨rfl, rfl⟩
  | perform taken => exact ⟨rfl, rfl⟩
  | calls left => cases left <;> exact ⟨rfl, rfl⟩
  | forget | look | rearm => exact absurd trivial h

theorem quiet_of_resume {call : Nat} {rest : Rest} (hrest : w.rest call = some rest)
    (h : ¬ rest.Steers) : w.Quiet (.resume call) := by
  refine ⟨fun _ _ _ => Move.noConfusion, Move.noConfusion, fun call' rest' hmove hrest' => ?_⟩
  cases hmove
  obtain rfl : rest = rest' := Option.some.inj (hrest.symm.trans hrest')
  exact h

/-- **A quiet move keeps what is pending**, and the timer unless that runs out. -/
theorem step_of_quiet (h : w.Quiet m) :
    (w.step m).scheduler.pending = w.scheduler.pending ∧
      ((w.step m).scheduler.device.armed = w.scheduler.device.armed ∨
        m = .expire ∧ (w.step m).scheduler.device.armed = none) := by
  obtain ⟨hrequest, hdisarm, hresume⟩ := h
  cases m with
  | request action delay aux => exact absurd rfl (hrequest action delay aux)
  | disarm => exact absurd rfl hdisarm
  | resume call =>
    cases hrest : w.rest call with
    | none =>
      simp only [step, hrest]
      exact ⟨rfl, Or.inl rfl⟩
    | some rest =>
      obtain ⟨hpending, harmed⟩ := next_of_not_steers (s := w.scheduler) (hresume call rest rfl hrest)
      simp only [step, hrest]
      exact ⟨hpending, Or.inl harmed⟩
  | wait =>
    simp only [step]
    split <;> exact ⟨rfl, Or.inl rfl⟩
  | expire =>
    refine ⟨rfl, ?_⟩
    by_cases harmed : w.scheduler.device.armed = none
    · left
      simp only [step, World.onDevice, if_pos harmed]
    · right
      simp only [step, World.onDevice, if_neg harmed]
      exact ⟨trivial, rfl⟩
  | _ => exact ⟨rfl, Or.inl rfl⟩

end World

namespace Run

variable {run : Run} {l k n call remaining : Nat} {seen : Request} {action : Action}
  {delay : UInt32} {aux : UInt8}

variable (run) in
/-- In move `n` nothing is asked for, and neither a wake nor a fresh start goes on. -/
def Quiet (n : Nat) : Prop := (run.world n).Quiet (run.move n)

variable (run) in
/-- A wake of the worker comes too early: in move `l` it looks at what is pending and finds `seen`, which
is not due for `remaining` milliseconds yet, and in move `n` it re-arms the timer. -/
structure Rearms (l n call : Nat) (seen : Request) (remaining : Nat) : Prop where
  before : l < n
  looks : run.Looks l call
  early : (run.scheduler l).look.1 = .early seen remaining
  rearms : run.move n = .resume call ∧ (run.world n).rest call = some (.rearm seen remaining)

/-- While all is quiet, what is pending is kept, and the timer until it runs out. -/
theorem kept_of_quiet (hkn : k ≤ n) (hquiet : ∀ j, k ≤ j → j < n → run.Quiet j) :
    (run.scheduler n).pending = (run.scheduler k).pending ∧
      ((run.scheduler n).device.armed = (run.scheduler k).device.armed ∨
        (run.scheduler n).device.armed = none ∧ ∃ j, k ≤ j ∧ j < n ∧ run.move j = .expire) := by
  induction hkn with
  | refl => exact ⟨rfl, Or.inl rfl⟩
  | @step n hkn ih =>
    obtain ⟨hpending, harmed⟩ := ih fun j hkj hjn => hquiet j hkj (Nat.lt_succ_of_lt hjn)
    obtain ⟨hstep, harmed'⟩ := World.step_of_quiet (hquiet n hkn (Nat.lt_succ_self n))
    refine ⟨hstep.trans hpending, ?_⟩
    rcases harmed' with hsame | ⟨hexpire, hnone⟩
    · rcases harmed with hbefore | ⟨hnone, j, hkj, hjn, hexpire⟩
      · exact Or.inl (hsame.trans hbefore)
      · exact Or.inr ⟨hsame.trans hnone, j, hkj, Nat.lt_succ_of_lt hjn, hexpire⟩
    · exact Or.inr ⟨hnone, n, hkn, Nat.lt_succ_self n, hexpire⟩

theorem Requests.armed {r : Request} (h : run.Requests k r) :
    (run.scheduler (k + 1)).device.armed =
      if r.delay = 0 then none else some (min r.lapse timeLimit) := by
  obtain ⟨hmove, hne, hfailure, hstart⟩ := h
  rw [scheduler_request hmove, (Scheduler.request_accepted hne hfailure).2, Request.lapse, hstart]
  rfl

/-- A call whose request is accepted leaves it pending, and any other leaves the scheduler idle. -/
theorem left_cases (hmove : run.move k = .request action delay aux) :
    (∃ r, run.Requests k r ∧ (run.scheduler (k + 1)).pending = some r) ∨
      (∀ r, ¬ run.Requests k r) ∧ (run.scheduler (k + 1)).Idle := by
  by_cases hrequests : ∃ r, run.Requests k r
  · obtain ⟨r, hr⟩ := hrequests
    exact Or.inl ⟨r, hr, hr.pending⟩
  refine Or.inr ⟨not_exists.1 hrequests, ?_⟩
  rw [scheduler_request hmove]
  refine Scheduler.idle_request (or_iff_not_imp_left.2 fun hne hfailure => hrequests ?_)
  exact ⟨⟨action, delay, (run.scheduler k).device.now, aux⟩, hmove, hne, hfailure, rfl⟩

/-- When a call has gone through, what it asked for is pending if it was accepted, and nothing else
is. -/
theorem requests_iff_pending (hmove : run.move k = .request action delay aux) {r : Request} :
    run.Requests k r ↔ (run.scheduler (k + 1)).pending = some r := by
  refine ⟨Requests.pending, fun hpending => ?_⟩
  rcases left_cases hmove with ⟨r', hr', hpending'⟩ | ⟨-, hnone, -⟩
  · obtain rfl : r = r' := Option.some.inj (hpending.symm.trans hpending')
    exact hr'
  · rw [hnone] at hpending
    cases hpending

theorem Rearms.scheduler (h : run.Rearms l n call seen remaining) :
    run.scheduler (n + 1) = (run.scheduler n).rearm seen remaining :=
  scheduler_resume h.rearms.1 h.rearms.2

/-! ## A request that comes in between -/

/-- **A call that came in between has the last word**, as long as what it asked for is not what the
worker saw: the same action with the same delay and byte, asked for while the clock showed the same.
When the wake is over, what the call asked for is pending if it was accepted, with the timer that it
armed unless that ran out; and otherwise nothing is. Where it did ask for the same, the worker takes
its request for the one it saw, and starts the timer anew or, if that is refused, drops the request. -/
theorem newer_request_kept (hrearms : run.Rearms l n call seen remaining)
    (hmove : run.move k = .request action delay aux) (hkn : k < n)
    (hquiet : ∀ j, k < j → j < n → run.Quiet j) :
    (¬ run.Requests k seen →
      (run.scheduler (n + 1)).pending = (run.scheduler (k + 1)).pending ∧
      (∀ r, run.Requests k r → (run.scheduler (n + 1)).pending = some r ∧
        ((run.scheduler (n + 1)).device.armed =
            (if r.delay = 0 then none else some (min r.lapse timeLimit)) ∨
          (run.scheduler (n + 1)).device.armed = none ∧ ∃ j, k < j ∧ j < n ∧ run.move j = .expire)) ∧
      ((∀ r, ¬ run.Requests k r) → (run.scheduler (n + 1)).pending = none ∧
        (run.scheduler (n + 1)).device.armed = none)) ∧
    (run.Requests k seen →
      ((run.scheduler (n + 1)).pending = some seen ∧ (run.scheduler (n + 1)).device.armed =
        some ((run.scheduler n).device.expiry (Scheduler.delayOf remaining))) ∨
      ∃ error, ((run.scheduler n).device.start (Scheduler.delayOf remaining)).1 = some error ∧
        (run.scheduler (n + 1)).pending = none) := by
  obtain ⟨hpending, harmed⟩ := kept_of_quiet hkn hquiet
  constructor
  · intro hother
    have hne : (run.scheduler n).pending ≠ some seen := by
      rw [hpending]
      exact fun hsame => hother ((requests_iff_pending hmove).2 hsame)
    have hsame : run.scheduler (n + 1) = run.scheduler n :=
      hrearms.scheduler.trans (Scheduler.rearm_of_ne hne)
    rw [hsame]
    refine ⟨hpending, fun r hr => ⟨hpending.trans hr.pending, ?_⟩, fun hnone => ?_⟩
    · rw [← hr.armed]
      exact harmed
    · rcases left_cases hmove with ⟨r, hr, -⟩ | ⟨-, hleft, hdisarmed⟩
      · exact absurd hr (hnone r)
      refine ⟨hpending.trans hleft, ?_⟩
      rcases harmed with harmed | ⟨harmed, -⟩
      · exact harmed.trans hdisarmed
      · exact harmed
  -- the guard compares values, and the values are the same
  · intro htwin
    have hseen : (run.scheduler n).pending = some seen := hpending.trans htwin.pending
    rw [hrearms.scheduler, Scheduler.rearm, if_pos hseen]
    rcases Scheduler.start_cases (Scheduler.delayOf remaining) (run.scheduler n).device with
      ⟨device, hstart, hexpiry⟩ | ⟨error, device, hstart, -⟩
    · left
      rw [hstart]
      exact ⟨hseen, hexpiry⟩
    · right
      rw [hstart]
      exact ⟨error, rfl, rfl⟩

/-- While the worker is about to re-arm the timer for a distant request, a nearer one is made. -/
def replaced : Run where
  device := Device.atRest ⟨0, 1000⟩
  move n := [.request .reconnect 10000 0, .setClock ⟨10, 1000⟩, .execute, .resume 2,
    .request .clearAndReconnect 50 0, .setOutcomes [some (.rejected 1)], .resume 4,
    .resume 2].getD n .wake

theorem replaced_kept : replaced.Rearms 3 7 2 ⟨.reconnect, 10000, 0, 0⟩ 9990 ∧
    (replaced.scheduler 8).pending = some ⟨.clearAndReconnect, 50, 10, 0⟩ ∧
      (replaced.scheduler 8).device.armed = some 60 := by
  have hrearms : replaced.Rearms 3 7 2 ⟨.reconnect, 10000, 0, 0⟩ 9990 :=
    ⟨by decide, ⟨rfl, rfl⟩, rfl, rfl, rfl⟩
  have hnewer : replaced.Requests 4 ⟨.clearAndReconnect, 50, 10, 0⟩ := ⟨rfl, by decide, rfl, rfl⟩
  have hother : ¬ replaced.Requests 4 ⟨.reconnect, 10000, 0, 0⟩ := by
    rintro ⟨hmove, -⟩
    cases hmove
  have hquiet : ∀ j, 4 < j → j < 7 → replaced.Quiet j := by
    intro j h4 h7
    obtain rfl | rfl : j = 5 ∨ j = 6 := by omega
    · exact ⟨fun _ _ _ => Move.noConfusion, Move.noConfusion, fun _ _ hmove => (nomatch hmove)⟩
    · have hsettle : (replaced.world 6).rest 4 = some (.settle .clearAndReconnect 50 none) := rfl
      exact World.quiet_of_resume hsettle id
  have hkept := (newer_request_kept hrearms rfl (by decide) hquiet).1 hother
  obtain ⟨hpending, harmed | ⟨hnone, -⟩⟩ := hkept.2.1 _ hnewer
  · exact ⟨hrearms, hpending, harmed⟩
  · cases hnone

/-- While the worker is about to re-arm the timer for a request, the same is asked for once more, before
the clock has moved on. -/
def twins : Run where
  device := Device.atRest ⟨0, 1000⟩
  move n := [.request .reconnect 50 0, .resume 0, .execute, .resume 2, .request .reconnect 50 0,
    .setOutcomes [some (.rejected 1)], .resume 4, .resume 2].getD n .wake

/-- **A request can be lost to the re-arm for another one**: it was accepted after the worker's look, the
timer is armed for it, and it is dropped. -/
theorem twin_dropped : twins.Rearms 3 7 2 ⟨.reconnect, 50, 0, 0⟩ 50 ∧
    twins.Requests 4 ⟨.reconnect, 50, 0, 0⟩ ∧
    (∀ j, 4 < j → j < 7 → twins.Quiet j ∧ twins.move j ≠ .expire) ∧
    (twins.scheduler 5).pending = some ⟨.reconnect, 50, 0, 0⟩ ∧
    (twins.scheduler 5).device.armed = some 50 ∧
    (twins.scheduler 8).pending = none := by
  refine ⟨⟨by decide, ⟨rfl, rfl⟩, rfl, rfl, rfl⟩, ⟨rfl, by decide, rfl, rfl⟩, ?_, rfl, rfl, rfl⟩
  intro j h4 h7
  obtain rfl | rfl : j = 5 ∨ j = 6 := by omega
  · exact ⟨⟨fun _ _ _ => Move.noConfusion, Move.noConfusion, fun _ _ hmove => (nomatch hmove)⟩,
      Move.noConfusion⟩
  · have hsettle : (twins.world 6).rest 4 = some (.settle .reconnect 50 none) := rfl
    exact ⟨World.quiet_of_resume hsettle id, Move.noConfusion⟩

/-! ## Time that passes in between -/

/-- What the worker saw was pending at its look, made before, and not due for some part of its delay. -/
theorem Rearms.deadline_eq (h : run.Rearms l n call seen remaining) (hclock : run.Steady 0 n) :
    (run.scheduler l).device.now + remaining = seen.deadline ∧ remaining ≤ seen.delay.toNat := by
  have hlook : (Rest.look.next (run.scheduler l)).1 = some (.rearm seen remaining) := by
    rw [Rest.next, h.early]
    rfl
  obtain ⟨hpending, hearly, hremaining⟩ := World.next_rearm hlook
  obtain ⟨i, hil, hrequests, -⟩ := origin_of_pending hpending
  have hmade := hrequests.made (Nat.le_of_lt hil)
    (hclock.mono (Nat.zero_le i) (Nat.le_of_lt h.before))
  have hle := Request.deadline_sub_le hmade
  exact ⟨by omega, by omega⟩

/-- **The timer that a re-arm starts runs out too late by the time that passed since the look**, if its
request is pending still. So it does not run out early, and it runs out when the request is due exactly
if the clock shows what it showed at the look. -/
theorem rearm_postpones (hrearms : run.Rearms l n call seen remaining) (hclock : run.Steady 0 n)
    (hpending : (run.scheduler (n + 1)).pending = some seen) :
    ∃ expiry, (run.scheduler (n + 1)).device.armed = some expiry ∧
      expiry = min (seen.deadline +
        ((run.scheduler n).device.now - (run.scheduler l).device.now)) timeLimit ∧
      (seen.deadline < timeLimit → seen.deadline ≤ expiry ∧ (expiry = seen.deadline ↔
        (run.scheduler n).device.now = (run.scheduler l).device.now)) := by
  obtain ⟨hdeadline, hremaining⟩ := hrearms.deadline_eq hclock
  have hnow : (run.scheduler l).device.now ≤ (run.scheduler n).device.now := by
    refine Clock.now_mono (Steady.before ?_ (Nat.le_of_lt hrearms.before))
    exact hclock.mono (Nat.zero_le l) (Nat.le_refl n)
  rw [hrearms.scheduler] at hpending ⊢
  rcases (run.scheduler n).rearm_cases seen remaining with ⟨-, device, harmed, heq⟩ |
    ⟨-, device, -, heq⟩ | ⟨hne, heq⟩ <;> rw [heq] at hpending ⊢
  · refine ⟨_, harmed, ?_⟩
    rw [Device.expiry, Scheduler.toNat_delayOf hremaining]
    omega
  · cases hpending
  · exact absurd hpending hne

/-- Half of a request's delay passes between the worker's look and its re-arm. -/
def late : Run where
  device := Device.atRest ⟨0, 1000⟩
  move n := [.request .reconnect 1000 0, .resume 0, .execute, .resume 2, .setClock ⟨500, 1000⟩,
    .resume 2].getD n .wake

theorem rearms_late : late.Rearms 3 5 2 ⟨.reconnect, 1000, 0, 0⟩ 1000 :=
  ⟨by decide, ⟨rfl, rfl⟩, rfl, rfl, rfl⟩

theorem steady_late : late.Steady 0 5 := by
  intro m _ hm
  obtain rfl | rfl | rfl | rfl | rfl : m = 0 ∨ m = 1 ∨ m = 2 ∨ m = 3 ∨ m = 4 := by omega
  all_goals exact ⟨rfl, by decide⟩

theorem late_rearm : late.Rearms 3 5 2 ⟨.reconnect, 1000, 0, 0⟩ 1000 ∧ late.Steady 0 5 ∧
    (late.scheduler 6).pending = some ⟨.reconnect, 1000, 0, 0⟩ ∧
    (late.scheduler 6).device.armed = some 1500 := by
  obtain ⟨expiry, harmed, hexpiry, -⟩ := rearm_postpones rearms_late steady_late rfl
  rw [hexpiry] at harmed
  exact ⟨rearms_late, steady_late, rfl, harmed⟩

/-- **A re-arm can postpone a request**: the request is pending and not due, no wake is outstanding, and
the timer runs out only after the request is due. -/
theorem late_rearm_overshoots : late.Rearms 3 5 2 ⟨.reconnect, 1000, 0, 0⟩ 1000 ∧
    late.Steady 0 5 ∧ (late.scheduler 6).pending = some ⟨.reconnect, 1000, 0, 0⟩ ∧
    (late.scheduler 6).device.notified = false ∧
    ∃ expiry, (late.scheduler 6).device.armed = some expiry ∧
      max (Request.deadline ⟨.reconnect, 1000, 0, 0⟩) (late.scheduler 6).device.now < expiry :=
  ⟨rearms_late, steady_late, rfl, rfl, 1500, rfl, by decide⟩

end Run

end Firmware.Schedule
