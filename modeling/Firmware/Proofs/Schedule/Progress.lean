import Firmware.Proofs.Schedule.Attention
import Firmware.Proofs.Schedule.Origin
import Firmware.Proofs.Schedule.Time
import Firmware.Proofs.Schedule.Wakes

/-!
# The worker gets to the pending request

A worker that is left alone, on a platform that lets it sleep until the timer expires. Whatever calls
came before and however they were interleaved, it performs what is pending when it is due, and then
nothing more. What it performs is read off the log: the calls of the action, as the table has them.

* `finishes_of_pending_none`: with nothing pending the worker calls nothing and goes idle.
* `serves_of_armed`: with the timer armed it performs the pending request when the timer expires.
* `worker_performs_pending`: so it does from every state that interleaved calls can leave.
-/

namespace Firmware.Schedule

/-- How a run of the worker ends after an action has been performed: the two reboots are resets, and
after any other action the worker waits for what comes next. -/
def RunEnd.after : Action → RunEnd
  | .reboot | .clearCredentialsAndReboot => .reset
  | _ => .idle

theorem RunEnd.after_eq (action : Action) (aux : UInt8) :
    RunEnd.after action = if .reset ∈ action.calls aux then .reset else .idle := by
  have hiff := action.reset_mem_calls_iff aux
  cases action <;> simp [hiff, after]

namespace Bench

/-- The bench in which the worker looks at the pending request, when it comes back from a wait. -/
def woken (bench : Bench) : Bench := (bench.wait true).onDevice Device.acknowledge

variable (nest : List Step → Bench → Bench)

/-- Within a number of waits, in which it may sleep, the worker makes some calls, starts the timer a
number of times and stops with nothing pending. -/
structure Finishes (waits : Nat) (bench : Bench) (ended : RunEnd) (calls : List Call)
    (starts : Nat) : Prop where
  ended : (run nest true waits bench).1 = ended
  pending : (run nest true waits bench).2.scheduler.pending = none
  notes : Notes bench (run nest true waits bench).2 calls starts

/-- Within a number of waits the worker performs a request, once, and is then done: it makes the calls
that the table has for the action, and no others, and it makes them in one wake, when the request is
due. -/
structure Serves (waits : Nat) (bench : Bench) (r : Request) (calls : List Call)
    (starts : Nat) : Prop where
  makes : r.action.Makes r.aux calls
  finishes : Finishes nest waits bench (RunEnd.after r.action) calls starts
  /-- After some waits the worker has called nothing yet; when it comes back from the next one it takes the
  request, and the clock has reached the deadline; and before the one after that it has called all. -/
  wake : ∃ before < waits, Notes bench (run nest true before bench).2 [] starts ∧
    (run nest true before bench).2.woken.scheduler.look.1 = .due r ∧
    r.deadline ≤ (run nest true before bench).2.woken.device.now ∧
    Notes bench (run nest true (before + 1) bench).2 calls starts

/-- How many wakes there can be while nothing is pending. -/
def wakesLeft (bench : Bench) : Nat :=
  bench.device.notified.toNat + bench.device.armed.isSome.toNat

variable {nest} {bench done : Bench} {r : Request} {waits starts : Nat}

/-! ## One wait and the rest of the run -/

theorem woken_notes (bench : Bench) : Notes bench bench.woken [] 0 := bench.wait_notes

theorem hooks_woken (bench : Bench) : bench.woken.hooks = bench.hooks := by
  unfold woken
  rcases bench.wait_cases with ⟨-, heq⟩ | ⟨-, expiry, -, heq⟩ | ⟨-, -, heq⟩ <;> rw [heq] <;> rfl

theorem before_woken (bench : Bench) : bench.device.clock.Before bench.woken.device.clock := by
  unfold woken
  rcases bench.wait_cases with ⟨-, heq⟩ | ⟨-, expiry, -, heq⟩ | ⟨-, -, heq⟩ <;> rw [heq]
  · exact Clock.Before.refl _
  · exact Clock.before_advance _ _
  · exact Clock.Before.refl _

theorem run_of_reset (waits : Nat) (h : (bench.wait true).device.notified = true)
    (hexecute : execute nest [] bench.woken = (.reset, done)) :
    run nest true (waits + 1) bench = (.reset, done) := by
  unfold woken at hexecute
  simp only [run, h, if_true, hexecute]

theorem run_of_worked {worked : Worked} (waits : Nat) (h : (bench.wait true).device.notified = true)
    (hexecute : execute nest [] bench.woken = (worked, done)) (hne : worked ≠ .reset) :
    run nest true (waits + 1) bench = run nest true waits done := by
  unfold woken at hexecute
  cases worked with
  | reset => exact absurd rfl hne
  | nothing | performed => simp only [run, h, if_true, hexecute]

theorem finishes_of_idle (hwait : (bench.wait true).device.notified = false)
    (hpending : (bench.wait true).scheduler.pending = none) :
    Finishes nest (waits + 1) bench .idle [] 0 := by
  have hrun : run nest true (waits + 1) bench = (.idle, bench.wait true) := by
    simp only [run, hwait, Bool.false_eq_true, if_false]
  exact ⟨by rw [hrun], by rw [hrun, hpending], by rw [hrun]; exact bench.wait_notes⟩

/-- A wake that does not end in a reset is followed by the rest of the run. -/
theorem Finishes.of_worked {worked : Worked} {ended : RunEnd} {calls calls' : List Call}
    {starts' : Nat} (h : (bench.wait true).device.notified = true)
    (hexecute : execute nest [] bench.woken = (worked, done)) (hne : worked ≠ .reset)
    (hnotes : Notes bench.woken done calls starts)
    (hrest : Finishes nest waits done ended calls' starts') :
    Finishes nest (waits + 1) bench ended (calls ++ calls') (starts + starts') := by
  have hrun := run_of_worked waits h hexecute hne
  refine ⟨by rw [hrun]; exact hrest.ended, by rw [hrun]; exact hrest.pending, ?_⟩
  rw [hrun]
  simpa using (woken_notes bench).trans (hnotes.trans hrest.notes)

/-- A wake that calls nothing is followed by a run that performs the request. -/
theorem Serves.of_worked {worked : Worked} {calls : List Call} {starts' : Nat}
    (h : (bench.wait true).device.notified = true)
    (hexecute : execute nest [] bench.woken = (worked, done)) (hne : worked ≠ .reset)
    (hnotes : Notes bench.woken done [] starts)
    (hrest : Serves nest waits done r calls starts') :
    Serves nest (waits + 1) bench r calls (starts + starts') := by
  have hdone : Notes bench done [] starts := by
    simpa using (woken_notes bench).trans hnotes
  have hrun := fun waits => run_of_worked waits h hexecute hne
  obtain ⟨before, hlt, hbefore, hlook, hdue, hafter⟩ := hrest.wake
  refine ⟨hrest.makes, Finishes.of_worked h hexecute hne hnotes hrest.finishes, before + 1,
    Nat.succ_lt_succ hlt, ?_⟩
  rw [hrun, hrun]
  exact ⟨hdone.trans hbefore, hlook, hdue, hdone.trans hafter⟩

section

variable (hnest : ∀ bench, nest [] bench = bench)

include hnest

/-- The clock goes on in a run if it does so in the rest of the run. -/
theorem woken_before_run_of (bench : Bench) (hhooks : bench.hooks = [])
    (hrest : ∀ done : Bench, done.hooks = [] →
      done.device.clock.Before (run nest true waits done).2.device.clock) :
    bench.woken.device.clock.Before (run nest true (waits + 1) bench).2.device.clock := by
  obtain ⟨hclock, hdone⟩ := execute_frame hnest bench.woken (by rw [hooks_woken, hhooks])
  cases hnotified : (bench.wait true).device.notified with
  | false =>
    simp only [run, hnotified, Bool.false_eq_true, if_false]
    exact Clock.Before.refl _
  | true =>
    rcases hexecute : execute nest [] bench.woken with ⟨worked, done⟩
    rw [hexecute] at hclock hdone
    by_cases hreset : worked = .reset
    · rw [hreset] at hexecute
      rw [run_of_reset waits hnotified hexecute, hclock]
      exact Clock.Before.refl _
    · rw [run_of_worked waits hnotified hexecute hreset, ← hclock]
      exact hrest done hdone

/-- In a run the clock only goes on. -/
theorem before_run (waits : Nat) (bench : Bench) (hhooks : bench.hooks = []) :
    bench.device.clock.Before (run nest true waits bench).2.device.clock := by
  induction waits generalizing bench with
  | zero => exact Clock.Before.refl _
  | succ waits ih => exact (before_woken bench).trans (woken_before_run_of hnest bench hhooks ih)

theorem woken_before_run (waits : Nat) (bench : Bench) (hhooks : bench.hooks = []) :
    bench.woken.device.clock.Before (run nest true (waits + 1) bench).2.device.clock :=
  woken_before_run_of hnest bench hhooks (before_run hnest waits)

/-! ## Runs to the end -/

/-- With nothing pending the worker calls nothing and goes idle. -/
theorem finishes_of_pending_none (bench : Bench) (hhooks : bench.hooks = [])
    (hpending : bench.scheduler.pending = none) (hwaits : bench.wakesLeft < waits) :
    Finishes nest waits bench .idle [] 0 := by
  induction waits generalizing bench with
  | zero => exact absurd hwaits (Nat.not_lt_zero _)
  | succ waits ih =>
    -- a wake finds nothing to do, so the rest of the run begins where it came
    have hwake : (bench.wait true).device.notified = true → bench.woken.scheduler.pending = none →
        bench.woken.wakesLeft < bench.wakesLeft → Finishes nest (waits + 1) bench .idle [] 0 := by
      intro hnotified hnone hleft
      have hhooks' : bench.woken.hooks = [] := by rw [hooks_woken, hhooks]
      obtain ⟨-, heq⟩ := execute_of_pending_none hnest bench.woken hhooks' hnone
      have hrest := ih bench.woken hhooks' hnone (by omega)
      exact Finishes.of_worked hnotified heq (by simp) (Notes.refl _) hrest
    rcases bench.wait_cases with ⟨hnotified, heq⟩ | ⟨hnotified, expiry, harmed, heq⟩ |
      ⟨hnotified, harmed, heq⟩
    · refine hwake ?_ ?_ ?_
      · rw [heq]; exact hnotified
      · rw [woken, heq]; exact hpending
      · simp only [woken, heq, wakesLeft, hnotified]
        simp [onDevice, onScheduler, Device.record, Device.acknowledge, device]
    · refine hwake ?_ ?_ ?_
      · rw [heq]; rfl
      · rw [woken, heq]; exact hpending
      · simp only [woken, heq, wakesLeft, hnotified, harmed]
        simp [slept, onDevice, onScheduler, Device.acknowledge, device]
    · refine finishes_of_idle ?_ ?_
      · rw [heq]; exact hnotified
      · rw [heq]; exact hpending

/-- A worker that wakes when the pending request is due makes the calls of its action in this wake, and
then calls nothing more. -/
theorem finishes_of_due (hhooks : bench.hooks = [])
    (hnotified : (bench.wait true).device.notified = true)
    (hpending : bench.woken.scheduler.pending = some r)
    (hdue : r.deadline ≤ bench.woken.device.now) (hleft : bench.woken.wakesLeft < waits) :
    Finishes nest (waits + 1) bench (RunEnd.after r.action) (r.action.calls r.aux) 0 ∧
      (run nest true 1 bench).2 = bench.woken.served r := by
  have hhooks' : bench.woken.hooks = [] := by rw [hooks_woken, hhooks]
  obtain ⟨-, heq⟩ := execute_of_due hnest bench.woken hhooks' hpending (Or.inr hdue)
  have hserved := served_notes r bench.woken
  unfold Request.worked at heq
  rw [RunEnd.after_eq _ r.aux]
  by_cases hreset : .reset ∈ r.action.calls r.aux
  · rw [if_pos hreset] at heq ⊢
    have hrun := fun waits => run_of_reset waits hnotified heq
    refine ⟨⟨by rw [hrun], by rw [hrun]; rfl, ?_⟩, by rw [hrun]⟩
    rw [hrun]
    simpa using (woken_notes bench).trans hserved
  · rw [if_neg hreset] at heq ⊢
    have hrest := finishes_of_pending_none hnest (bench.woken.served r) hhooks' rfl hleft
    have hfinishes := Finishes.of_worked hnotified heq (by simp) hserved hrest
    refine ⟨by simpa using hfinishes, ?_⟩
    rw [run_of_worked 0 hnotified heq (by simp)]
    rfl

/-- A worker that wakes when the pending request is due performs it. -/
theorem serves_of_due (hhooks : bench.hooks = [])
    (hnotified : (bench.wait true).device.notified = true)
    (hpending : bench.woken.scheduler.pending = some r) (haction : r.action ≠ .nothing)
    (hdue : r.deadline ≤ bench.woken.device.now) (hleft : bench.woken.wakesLeft < waits) :
    Serves nest (waits + 1) bench r (r.action.calls r.aux) 0 := by
  obtain ⟨hfinishes, hfirst⟩ := finishes_of_due hnest hhooks hnotified hpending hdue hleft
  have hlook : bench.woken.scheduler.look.1 = .due r :=
    Scheduler.look_eq_due_iff.2 ⟨hpending, Or.inr hdue⟩
  refine ⟨Action.makes_iff.2 ⟨haction, rfl⟩, hfinishes, 0, Nat.succ_pos _, Notes.refl bench,
    hlook, hdue, ?_⟩
  rw [hfirst]
  simpa using (woken_notes bench).trans (served_notes r bench.woken)

/-- With the timer armed the worker performs the pending request when the timer expires, if it does not
expire too early. -/
theorem serves_of_armed (bench : Bench) {expiry : Nat} (hhooks : bench.hooks = [])
    (hnotified : bench.device.notified = false) (harmed : bench.device.armed = some expiry)
    (hpending : bench.scheduler.pending = some r) (haction : r.action ≠ .nothing)
    (hdeadline : r.deadline ≤ expiry) (hrate : bench.device.clock.frequency ≠ 0)
    (hrange : bench.woken.device.clock.ticks.toNat * 1000 < UInt64.size) (hwaits : 0 < waits) :
    Serves nest (waits + 1) bench r (r.action.calls r.aux) 0 := by
  rcases bench.wait_cases with ⟨htrue, -⟩ | ⟨-, e, he, heq⟩ | ⟨-, hnone, -⟩
  · rw [hnotified] at htrue; cases htrue
  · rw [harmed] at he
    cases he
    have hclock : bench.woken.device.clock =
        bench.device.clock.advance (bench.device.clock.ticksFor (expiry - bench.device.now)) := by
      rw [woken, heq]
      rfl
    refine serves_of_due hnest hhooks ?_ ?_ haction ?_ ?_
    · rw [heq]; rfl
    · rw [woken, heq]; exact hpending
    · rw [hclock] at hrange
      have hslept := Clock.le_now_advance_ticksFor hrate hrange
      rw [← hclock] at hslept
      simp only [Device.now] at hslept ⊢
      omega
    · rw [woken, heq]; exact hwaits
  · rw [harmed] at hnone; cases hnone

/-- A wake that comes too early re-arms the timer, and the run goes on until the timer expires. -/
theorem serves_of_early (waits : Nat) (hhooks : bench.hooks = []) (hwilling : bench.device.Willing)
    (hnotified : bench.device.notified = true) (hpending : bench.scheduler.pending = some r)
    (haction : r.action ≠ .nothing) (hdelay : r.delay ≠ 0) (hmade : r.start ≤ bench.device.now)
    (hearly : bench.device.now < r.deadline) (hrate : bench.device.clock.frequency ≠ 0)
    (hrange : (run nest true (waits + 2) bench).2.device.clock.ticks.toNat * 1000 < UInt64.size)
    (hwaits : 0 < waits) : Serves nest (waits + 2) bench r (r.action.calls r.aux) 1 := by
  have hwait := wait_of_notified hnotified
  have hwoken : bench.woken = bench.onDevice fun device => (device.record .wait).acknowledge := by
    rw [woken, hwait]
    rfl
  have hawake : (bench.wait true).device.notified = true := by
    rw [hwait]
    exact hnotified
  obtain ⟨-, heq⟩ : bench.woken.executed = [] ∧
      execute nest [] bench.woken = (.nothing, bench.woken.rearmed r) := by
    rw [hwoken]
    exact execute_of_early hnest _ hhooks hwilling hpending hdelay hmade hearly
  have hrest := run_of_worked (waits + 1) hawake heq (by simp)
  have hhooks' : (bench.woken.rearmed r).hooks = [] := by rw [hwoken]; exact hhooks
  have hbefore := woken_before_run hnest waits (bench.woken.rearmed r) hhooks'
  rw [← hrest] at hbefore
  have hserves := serves_of_armed hnest (bench.woken.rearmed r) hhooks'
    (by rw [hwoken]; rfl) rfl (by rw [hwoken]; exact hpending) haction (Nat.le_refl _)
    (by rw [hwoken]; exact hrate)
    (Nat.lt_of_le_of_lt (Nat.mul_le_mul_right _ hbefore.ticks) hrange) hwaits
  exact Serves.of_worked hawake heq (by simp) (rearmed_notes r bench.woken) hserves

/-- The worker performs a pending request, once and not before it is due, if what is on its way to
it is a wake or the expiry of the timer. -/
theorem serves_of_pending (hhooks : bench.hooks = []) (hwilling : bench.device.Willing)
    (hpending : bench.scheduler.pending = some r) (haction : r.action ≠ .nothing)
    (hmade : r.start ≤ bench.device.now)
    (harmed : ∀ e, bench.device.armed = some e → r.deadline ≤ e)
    (hattended : bench.device.armed ≠ none ∨ bench.device.notified = true)
    (hrate : bench.device.clock.frequency ≠ 0)
    (hrange : (run nest true waits bench).2.device.clock.ticks.toNat * 1000 < UInt64.size)
    (hwaits : 3 ≤ waits) :
    ∃ starts ≤ 1, Serves nest waits bench r (r.action.calls r.aux) starts := by
  obtain ⟨waits, rfl⟩ := Nat.exists_eq_add_of_le' hwaits
  rcases bench.wait_cases with ⟨hnotified, heq⟩ | ⟨hnotified, expiry, hexpiry, -⟩ |
    ⟨hnotified, hnone, -⟩
  · -- a wake is outstanding: it comes in time, or too early
    by_cases hdue : r.deadline ≤ bench.device.now
    · refine ⟨0, Nat.zero_le _, serves_of_due hnest hhooks ?_ ?_ haction ?_ ?_⟩
      · rw [heq]; exact hnotified
      · rw [woken, heq]; exact hpending
      · rw [woken, heq]; exact hdue
      · have hleft : bench.woken.wakesLeft ≤ 1 := by
          rw [woken, heq]
          exact Nat.add_le_add_left (Bool.toNat_le _) 0
        omega
    · have hdelay : r.delay ≠ 0 := fun hzero =>
        hdue (Nat.le_trans (Request.deadline_le_start hzero) hmade)
      exact ⟨1, Nat.le_refl _, serves_of_early hnest (waits + 1) hhooks hwilling hnotified
        hpending haction hdelay hmade (Nat.lt_of_not_le hdue) hrate hrange (Nat.succ_pos _)⟩
  · have hbefore := woken_before_run hnest (waits + 2) bench hhooks
    exact ⟨0, Nat.zero_le _, serves_of_armed hnest bench hhooks hnotified hexpiry hpending haction
      (harmed expiry hexpiry) hrate
      (Nat.lt_of_le_of_lt (Nat.mul_le_mul_right _ hbefore.ticks) hrange) (Nat.succ_pos _)⟩
  · rcases hattended with h | h
    · exact absurd hnone h
    · rw [hnotified] at h; cases h

end

/-- When the timer expires the pending request is due, if the timer does not run out before it is. -/
theorem look_of_advance {ticks : Nat} (hpending : bench.scheduler.pending = some r)
    (harmed : ∀ e, bench.device.armed = some e → r.deadline ≤ e)
    (hexpired : (bench.advance ticks).1 = true) :
    (bench.advance ticks).2.scheduler.look.1 = .due r := by
  rcases bench.advance_cases ticks with ⟨e, hexpiry, hdue, heq⟩ | ⟨-, heq⟩
  · rw [heq]
    exact Scheduler.look_eq_due_iff.2 ⟨hpending, Or.inr (Nat.le_trans (harmed e hexpiry) hdue)⟩
  · rw [heq] at hexpired; cases hexpired

end Bench

namespace Run

variable {nest : List Step → Bench → Bench} {run : Run} {n : Nat}

/-- **The worker gets to what is pending, and nothing re-arms the timer for ever.** However calls were
interleaved before, no armed timer runs out before the pending request is due, so that an expiry finds
the request due. Where no call is under way, a worker with three waits or more that sleeps until the
timer expires performs the pending request, exactly once and not before it is due, after starting the
timer once at most, and is left idle or reset with nothing pending; if nothing is pending it calls
nothing and goes idle. -/
theorem worker_performs_pending (hnest : ∀ bench, nest [] bench = bench)
    (hclock : run.Steady 0 n) (hrate : (run.scheduler n).device.clock.frequency ≠ 0) :
    (∀ r, (run.scheduler n).pending = some r →
      (∀ e, (run.scheduler n).device.armed = some e → r.deadline ≤ e) ∧
      ∀ ticks, (Bench.advance ticks ⟨run.scheduler n, []⟩).1 = true →
        (Bench.advance ticks ⟨run.scheduler n, []⟩).2.scheduler.look.1 = .due r) ∧
    ((∀ call, (run.world n).rest call = none) → ∀ waits ≥ 3,
      (∀ r, (run.scheduler n).pending = some r → (run.scheduler n).device.Willing →
        (Bench.run nest true waits ⟨run.scheduler n, []⟩).2.device.clock.ticks.toNat * 1000 <
          UInt64.size →
        ∃ calls, ∃ starts ≤ 1, Bench.Serves nest waits ⟨run.scheduler n, []⟩ r calls starts) ∧
      ((run.scheduler n).pending = none →
        Bench.Finishes nest waits ⟨run.scheduler n, []⟩ .idle [] 0)) := by
  have hpunctual := punctual_world hclock
  refine ⟨fun r hr => ⟨fun e => hpunctual.armed r e hr, fun ticks => ?_⟩,
    fun hquiet waits hwaits => ⟨fun r hr hwilling hrange => ?_, fun hnone => ?_⟩⟩
  · exact Bench.look_of_advance hr fun e => hpunctual.armed r e hr
  · -- no call is left to bring the worker to the request, so a wake or the timer does
    have hattended : (run.scheduler n).device.armed ≠ none ∨
        (run.scheduler n).device.notified = true := by
      by_contra hleft
      obtain ⟨harmed, hnotified⟩ := not_or.1 hleft
      have hnone := pending_eq_none hquiet (Bool.eq_false_iff.2 hnotified)
        (not_not.1 harmed)
      rw [hr] at hnone
      cases hnone
    obtain ⟨_, -, hrequests, -⟩ := origin_of_pending hr
    exact ⟨_, Bench.serves_of_pending hnest rfl hwilling hr hrequests.2.1 (hpunctual.made r hr)
      (fun e => hpunctual.armed r e hr) hattended hrate hrange hwaits⟩
  · refine Bench.finishes_of_pending_none hnest _ rfl hnone ?_
    have hwakes : Bench.wakesLeft ⟨run.scheduler n, []⟩ ≤ 1 + 1 :=
      Nat.add_le_add (Bool.toNat_le _) (Bool.toNat_le _)
    omega

/-- A request is pending, and a wake that it did not ask for is outstanding. -/
def spurious : Run where
  device := Device.atRest ⟨0, 32768⟩
  move n := [.request .reconnect 50 7, .resume 0, .wake].getD n (.setClock ⟨700, 32768⟩)

theorem spurious_performs : spurious.Steady 0 4 ∧
    (spurious.scheduler 4).pending = some ⟨.reconnect, 50, 0, 7⟩ ∧
    (spurious.scheduler 4).device.notified = true ∧
    ∃ starts ≤ 1, Bench.Serves (fun _ bench => bench) 3 ⟨spurious.scheduler 4, []⟩
      ⟨.reconnect, 50, 0, 7⟩ [.disconnect, .waitDisconnected 5000, .connectAndWait] starts := by
  have hclock : spurious.Steady 0 4 := by
    intro m _ hm
    rcases m with _ | _ | _ | _ | m
    case succ.succ.succ.succ => omega
    all_goals exact ⟨rfl, by decide⟩
  have hquiet : ∀ call, (spurious.world 4).rest call = none := by
    intro call
    rcases call with _ | _ | _ | _ | call
    case succ.succ.succ.succ => exact rest_eq_none (by omega)
    all_goals rfl
  have hserves : ∃ calls, ∃ starts ≤ 1, Bench.Serves (fun _ bench => bench) 3
      ⟨spurious.scheduler 4, []⟩ ⟨.reconnect, 50, 0, 7⟩ calls starts :=
    ((worker_performs_pending (fun _ => rfl) hclock (by decide)).2 hquiet 3 (by decide)).1
      ⟨.reconnect, 50, 0, 7⟩ rfl (fun _ h => nomatch h) (by decide)
  obtain ⟨calls, starts, hstarts, hserves⟩ := hserves
  cases hserves.makes
  exact ⟨hclock, rfl, rfl, starts, hstarts, hserves⟩

end Run

end Firmware.Schedule
