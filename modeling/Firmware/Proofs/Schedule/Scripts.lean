import Firmware.Proofs.Schedule.Attention
import Firmware.Schedule.Script

/-!
# Scripts are runs

What the steps of a script do, with the steps put into them, is what interleaved calls can do: a
step that runs inside another one is a call that begins and ends between two parts of another call.
So what holds in every run holds of every script.

* `take_leads`: a step leads where moves can lead, with nothing left of the calls it has begun.
* `exists_run_of_mem_play`: each view of a script is a view of a run, between calls.
* `view_attended`: after each step of a script a pending request has its timer armed or a wake
  outstanding.
-/

namespace Firmware.Schedule

namespace World

/-- The world after some moves. -/
def play (w : World) (moves : List Move) : World := moves.foldl step w

variable {w : World}

theorem play_append (moves moves' : List Move) :
    w.play (moves ++ moves') = (w.play moves).play moves' := List.foldl_append

theorem Fresh.play (h : w.Fresh) (moves : List Move) : (w.play moves).Fresh := by
  induction moves generalizing w with
  | nil => exact h
  | cons m moves ih => exact ih h.step

end World

/-- Moves lead from one scheduler to another, whatever calls are under way, and leave those calls as
they are. -/
def Leads (s s' : Scheduler) : Prop :=
  ∀ w : World, w.Fresh → w.scheduler = s →
    ∃ moves, (w.play moves).scheduler = s' ∧ (w.play moves).rest = w.rest

/-- A call that goes on, with others in between, comes from one rest to another. -/
def Continues (rest : Rest) (s : Scheduler) (rest' : Option Rest) (s' : Scheduler) : Prop :=
  ∀ (w : World) (call : Nat), w.Fresh → w.scheduler = s → w.rest call = some rest →
    ∃ moves, (w.play moves).scheduler = s' ∧
      (w.play moves).rest = Function.update w.rest call rest'

section

variable {s s' s'' : Scheduler} {rest middle : Rest} {rest' : Option Rest}

theorem Leads.refl : Leads s s := fun _ _ hs => ⟨[], hs, rfl⟩

theorem Leads.trans (h : Leads s s') (h' : Leads s' s'') : Leads s s'' := by
  intro w hw hs
  obtain ⟨moves, hscheduler, hrest⟩ := h w hw hs
  obtain ⟨moves', hscheduler', hrest'⟩ := h' _ (hw.play moves) hscheduler
  refine ⟨moves ++ moves', ?_, ?_⟩
  · rw [World.play_append, hscheduler']
  · rw [World.play_append, hrest', hrest]

/-- A move of the hardware. -/
theorem Leads.device (m : Move) (change : Device → Device)
    (h : ∀ w : World, w.scheduler = s → w.step m = w.onDevice change) :
    Leads s { s with device := change s.device } := by
  intro w _ hs
  refine ⟨[m], ?_, ?_⟩
  · rw [World.play, List.foldl_cons, List.foldl_nil, h w hs, World.onDevice, hs]
  · rw [World.play, List.foldl_cons, List.foldl_nil, h w hs, World.onDevice]

theorem Leads.clock (change : Clock → Clock) :
    Leads s { s with device := { s.device with clock := change s.device.clock } } := by
  refine Leads.device (.setClock (change s.device.clock))
    (fun device => { device with clock := change device.clock }) fun w hw => ?_
  rw [World.step, World.onDevice, World.onDevice, hw]

theorem Leads.outcomes (change : List (Option TimerError) → List (Option TimerError)) :
    Leads s { s with device := { s.device with outcomes := change s.device.outcomes } } := by
  refine Leads.device (.setOutcomes (change s.device.outcomes))
    (fun device => { device with outcomes := change device.outcomes }) fun w hw => ?_
  rw [World.step, World.onDevice, World.onDevice, hw]

theorem Continues.next (rest : Rest) (s : Scheduler) :
    Continues rest s (rest.next s).1 (rest.next s).2 := by
  intro w call _ hs hrest
  refine ⟨[.resume call], ?_, ?_⟩
  · simp only [World.play, List.foldl_cons, List.foldl_nil, World.step, hrest, World.leave, hs]
  · simp only [World.play, List.foldl_cons, List.foldl_nil, World.step, hrest, World.leave, hs]

/-- Between two parts of a call others may go on. -/
theorem Continues.leads (h : Continues rest s rest' s') (h' : Leads s' s'') :
    Continues rest s rest' s'' := by
  intro w call hw hs hrest
  obtain ⟨moves, hscheduler, hafter⟩ := h w call hw hs hrest
  obtain ⟨moves', hscheduler', hafter'⟩ := h' _ (hw.play moves) hscheduler
  refine ⟨moves ++ moves', ?_, ?_⟩
  · rw [World.play_append, hscheduler']
  · rw [World.play_append, hafter', hafter]

theorem Continues.trans (h : Continues rest s (some middle) s')
    (h' : Continues middle s' rest' s'') : Continues rest s rest' s'' := by
  intro w call hw hs hrest
  obtain ⟨moves, hscheduler, hafter⟩ := h w call hw hs hrest
  have hmiddle : (w.play moves).rest call = some middle := by
    rw [hafter, Function.update_self]
  obtain ⟨moves', hscheduler', hafter'⟩ := h' _ call (hw.play moves) hscheduler hmiddle
  refine ⟨moves ++ moves', ?_, ?_⟩
  · rw [World.play_append, hscheduler']
  · rw [World.play_append, hafter', hafter, Function.update_idem]

/-- While others go on, a call stays where it is. -/
theorem Leads.continues (h : Leads s s') : Continues rest s (some rest) s' := by
  intro w call hw hs hrest
  obtain ⟨moves, hscheduler, hafter⟩ := h w hw hs
  refine ⟨moves, hscheduler, ?_⟩
  rw [hafter, ← hrest, Function.update_eq_self]

/-- A call that begins and comes to its end. -/
theorem Leads.call (m : Move)
    (hm : ∀ w : World, w.scheduler = s → w.step m = w.leave w.made (some rest) s')
    (h : Continues rest s' none s'') : Leads s s'' := by
  intro w hw hs
  have hstep := hm w hs
  have hrest : (w.step m).rest w.made = some rest := by rw [hstep, World.rest_leave_self]
  obtain ⟨moves, hscheduler, hafter⟩ := h (w.step m) w.made hw.step (by rw [hstep]; rfl) hrest
  refine ⟨m :: moves, hscheduler, ?_⟩
  have hplay : (w.play (m :: moves)).rest = Function.update (w.step m).rest w.made none := hafter
  rw [hplay, hstep, World.leave, Function.update_idem, ← hw w.made (Nat.le_refl _),
    Function.update_eq_self]

end

namespace Bench

section

variable {nest : List Step → Bench → Bench}
  (hnest : ∀ steps bench, Leads bench.scheduler (nest steps bench).scheduler)

include hnest

/-- A call on the rest of the system, with the steps that were put into it. -/
theorem invoke_leads (call : Call) (bench : Bench) :
    Leads (bench.onDevice (·.record (.call call))).scheduler
      (invoke nest call bench).scheduler := by
  simp only [invoke]
  split
  next steps _ =>
    exact hnest steps ⟨(bench.onDevice (·.record (.call call))).scheduler,
      (bench.onDevice (·.record (.call call))).hooks.filter (·.1 ≠ call)⟩
  next => exact Leads.refl

theorem invoke_continues (call : Call) (left : List Call) (bench : Bench) :
    Continues (.calls (call :: left)) bench.scheduler
      (if call = .reset then none else some (.calls left)) (invoke nest call bench).scheduler :=
  (Continues.next (.calls (call :: left)) bench.scheduler).leads (invoke_leads hnest call bench)

theorem perform_continues (calls : List Call) (bench : Bench) :
    Continues (.calls calls) bench.scheduler none (perform nest calls bench).2.scheduler := by
  induction calls generalizing bench with
  | nil => exact Continues.next (.calls []) bench.scheduler
  | cons call calls ih =>
    have hinvoke := invoke_continues hnest call calls bench
    unfold perform
    by_cases hreset : call = .reset
    · rw [if_pos hreset] at hinvoke ⊢
      exact hinvoke
    · rw [if_neg hreset] at hinvoke ⊢
      exact hinvoke.trans (ih _)

theorem execute_continues (preempt : List Step) (bench : Bench) :
    Continues .look bench.scheduler none (execute nest preempt bench).2.scheduler := by
  have hlook : Continues .look bench.scheduler (Rest.ofLook bench.scheduler.look.1)
      (nest preempt { bench with scheduler := bench.scheduler.look.2 }).scheduler :=
    (Continues.next .look bench.scheduler).leads
      (hnest preempt { bench with scheduler := bench.scheduler.look.2 })
  rcases heq : bench.scheduler.look with ⟨look, scheduler⟩
  rw [heq] at hlook
  simp only [execute, heq]
  cases look with
  | nothing => exact hlook
  | early seen remaining => exact hlook.trans (Continues.next (.rearm seen remaining) _)
  | due taken =>
    have hperform :=
      Continues.next (.perform taken) (nest preempt { bench with scheduler }).scheduler
    exact hlook.trans (hperform.trans (perform_continues hnest _ _))

theorem schedule_leads (action : Action) (delay : UInt32) (aux : UInt8) (preempt : List Step)
    (bench : Bench) :
    Leads bench.scheduler (schedule nest action delay aux preempt bench).2.scheduler := by
  have hrequest := hnest preempt
    { bench with scheduler := (bench.scheduler.request action delay aux).2 }
  have hsettle := hrequest.continues.trans
    (Continues.next (.settle action delay (bench.scheduler.request action delay aux).1) _)
  refine Leads.call (.request action delay aux) (fun w hw => ?_) hsettle
  rw [World.step, hw]

/-- The worker comes back from waiting and handles the wake. -/
theorem wake_leads {bench : Bench} (h : bench.device.notified = true) :
    Leads bench.scheduler (execute nest [] (bench.onDevice Device.acknowledge)).2.scheduler := by
  refine Leads.call .wait (fun w hw => ?_) (execute_continues hnest [] _)
  have hnotified : w.scheduler.device.notified = true := by rw [hw]; exact h
  rw [World.step, if_pos hnotified, hw]
  rfl

theorem drain_leads (limit : Nat) (bench : Bench) :
    Leads bench.scheduler (drain nest limit bench).2.scheduler := by
  induction limit generalizing bench with
  | zero => exact Leads.refl
  | succ limit ih =>
    unfold drain
    split
    next h => exact (wake_leads hnest h).trans (ih _)
    next => exact Leads.refl

end

theorem tick_leads (ticks : Nat) (bench : Bench) :
    Leads bench.scheduler (bench.onDevice (·.tick ticks)).scheduler :=
  Leads.clock (·.advance ticks)

theorem expire_leads {bench : Bench} (h : bench.device.armed ≠ none) :
    Leads bench.scheduler ((bench.onDevice fun device => { device with armed := none }).onScheduler
      Scheduler.timerExpired).scheduler := by
  refine Leads.device .expire (fun device => { device with armed := none }.notify) fun w hw => ?_
  have harmed : w.scheduler.device.armed ≠ none := by rw [hw]; exact h
  simp only [World.step, World.onDevice, if_neg harmed]

theorem sleep_leads (bench : Bench) : Leads bench.scheduler bench.sleep.scheduler := by
  unfold sleep
  split
  next => exact Leads.refl
  next expiry harmed =>
    have htick := tick_leads (bench.device.clock.ticksFor (expiry - bench.device.now)) bench
    have hne : bench.device.armed ≠ none := by simp [harmed]
    exact htick.trans (expire_leads hne)

theorem wait_leads (maySleep : Bool) (bench : Bench) :
    Leads bench.scheduler (bench.wait maySleep).scheduler := by
  have hrecord : Leads bench.scheduler (bench.onDevice (·.record .wait)).scheduler :=
    Leads.device (.record .wait) (·.record .wait) fun _ _ => rfl
  simp only [wait]
  split
  · exact hrecord.trans (sleep_leads _)
  · exact hrecord

theorem run_leads {nest : List Step → Bench → Bench}
    (hnest : ∀ steps bench, Leads bench.scheduler (nest steps bench).scheduler) (maySleep : Bool)
    (waits : Nat) (bench : Bench) :
    Leads bench.scheduler (run nest maySleep waits bench).2.scheduler := by
  induction waits generalizing bench with
  | zero => exact Leads.refl
  | succ waits ih =>
    have hwait := wait_leads maySleep bench
    simp only [run]
    split
    next h =>
      have hwake := hwait.trans (wake_leads hnest h)
      split
      next done heq => rwa [heq] at hwake
      next done _ heq =>
        rw [heq] at hwake
        exact hwake.trans (ih _)
    next => exact hwait

theorem advance_leads (ticks : Nat) (bench : Bench) :
    Leads bench.scheduler (bench.advance ticks).2.scheduler := by
  have htick := tick_leads ticks bench
  simp only [advance]
  split
  next expiry harmed =>
    split
    · exact htick.trans (expire_leads (by rw [harmed]; simp))
    · exact htick
  next => exact htick

end Bench

/-- **A step leads where moves can lead.** -/
theorem take_leads (depth : Nat) (step : Step) (bench : Bench) :
    Leads bench.scheduler (step.take depth bench).2.scheduler := by
  induction depth generalizing step bench with
  | zero => exact Leads.refl
  | succ depth ih =>
    -- the steps that are put into this one are taken one after another, each with its entry in the
    -- log; they are one level down, so the induction hypothesis speaks of them
    have hnest : ∀ (steps : List Step) (bench : Bench), Leads bench.scheduler
        (steps.foldl (fun bench step =>
          let taken := step.take depth bench
          taken.2.onDevice (·.record (.nested step.name taken.1 taken.2.scheduler.remaining)))
          bench).scheduler := by
      intro steps
      induction steps with
      | nil => intro bench; exact Leads.refl
      | cons first steps ihsteps =>
        intro bench
        rw [List.foldl_cons]
        refine Leads.trans ?_ (ihsteps _)
        refine (ih first bench).trans ?_
        exact Leads.device (.record _) (·.record _) fun _ _ => rfl
    cases step with
    | schedule code delay aux preempt =>
      simp only [Step.take]
      split
      · exact Bench.schedule_leads hnest _ delay aux preempt bench
      · exact Leads.refl
    | execute preempt =>
      refine Leads.call .execute (fun w hw => ?_) (Bench.execute_continues hnest preempt bench)
      rw [World.step, hw]
    | drain => exact Bench.drain_leads hnest drainLimit bench
    | run waits maySleep => exact Bench.run_leads hnest maySleep waits bench
    | init =>
      refine Leads.call .disarm (fun w hw => ?_) (Continues.next .forget bench.scheduler.disarm)
      rw [World.step, hw]
    | expire => exact Leads.device .wake Device.notify fun _ _ => rfl
    | tick ticks => exact Bench.tick_leads ticks bench
    | advance ticks => exact Bench.advance_leads ticks bench
    | setTicks ticks => exact Leads.clock fun clock => { clock with ticks }
    | setFrequency frequency => exact Leads.clock fun clock => { clock with frequency }
    | failStart outcomes => exact Leads.outcomes (· ++ outcomes)
    | handler during => cases during <;> exact Leads.refl

namespace Script

/-- Each view of a script is taken where moves can lead. -/
theorem leads_of_mem_playFrom {depth : Nat} {steps : List Step} {bench : Bench} {view : View}
    (h : view ∈ playFrom depth steps bench) :
    ∃ outcome after, view = View.ofBench outcome after ∧
      Leads bench.scheduler after.scheduler := by
  induction steps generalizing bench with
  | nil => cases h
  | cons step steps ih =>
    have hclear : Leads bench.scheduler
        (bench.onDevice fun device => { device with log := [] }).scheduler :=
      Leads.device .clearLog (fun device => { device with log := [] }) fun _ _ => rfl
    have htake := hclear.trans (take_leads depth step _)
    rcases List.mem_cons.1 h with rfl | h
    · exact ⟨_, _, rfl, htake⟩
    · obtain ⟨outcome, after, hview, hleads⟩ := ih h
      exact ⟨outcome, after, hview, htake.trans hleads⟩

end Script

namespace Run

/-- A run that makes some moves and then nothing but wake the worker. -/
def ofMoves (device : Device) (moves : List Move) : Run := ⟨device, fun n => moves.getD n .wake⟩

theorem world_ofMoves (device : Device) (moves : List Move) {n : Nat} (h : n ≤ moves.length) :
    (ofMoves device moves).world n = (World.start device).play (moves.take n) := by
  induction n with
  | zero => rfl
  | succ n ih =>
    have hmove : (ofMoves device moves).move n = moves[n] := by
      show moves.getD n .wake = moves[n]
      rw [List.getD_eq_getElem?_getD, List.getElem?_eq_getElem h, Option.getD_some]
    rw [world, ih (Nat.le_of_succ_le h), List.take_add_one, List.getElem?_eq_getElem h,
      Option.toList_some, World.play_append, hmove]
    rfl

end Run

namespace Script

/-- **Each view of a script is a view of a run, with no call under way.** -/
theorem exists_run_of_mem_play {clock : Clock} {steps : List Step} {view : View}
    (h : view ∈ play clock steps) :
    ∃ (run : Run) (n : Nat) (outcome : Outcome) (after : Bench),
      view = View.ofBench outcome after ∧ after.scheduler = run.scheduler n ∧
        ∀ call, (run.world n).rest call = none := by
  obtain ⟨outcome, after, hview, hleads⟩ := leads_of_mem_playFrom h
  obtain ⟨moves, hscheduler, hrest⟩ :=
    hleads (World.start (Device.atRest clock)) (fun _ _ => rfl) rfl
  have hworld := Run.world_ofMoves (Device.atRest clock) moves (Nat.le_refl _)
  rw [List.take_length] at hworld
  refine ⟨Run.ofMoves (Device.atRest clock) moves, moves.length, outcome, after, hview, ?_, ?_⟩
  · rw [Run.scheduler, hworld, hscheduler]
  · intro call
    rw [hworld, hrest]
    rfl

/-- **No script strands a request.** After each of its steps, whatever was put into it, a pending
request has its timer armed or a wake outstanding. -/
theorem view_attended {clock : Clock} {steps : List Step} {view : View}
    (h : view ∈ play clock steps) (hpending : view.remaining ≠ none) :
    view.armed ≠ none ∨ view.notified = true := by
  obtain ⟨run, n, outcome, after, rfl, hscheduler, hquiet⟩ := exists_run_of_mem_play h
  by_contra hnot
  obtain ⟨harmed, hnotified⟩ := not_or.1 hnot
  rw [View.ofBench, Bench.device, hscheduler] at harmed hnotified
  rw [View.ofBench, hscheduler] at hpending
  have hnone := Run.pending_eq_none hquiet (by simpa using hnotified) (by simpa using harmed)
  simp [Scheduler.remaining, hnone] at hpending

end Script

end Firmware.Schedule
