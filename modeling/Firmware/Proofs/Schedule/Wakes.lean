import Firmware.Schedule.Bench
import Firmware.Proofs.Schedule.Time

/-!
# What the worker performs

A worker that is left alone: nothing comes into a wake, and no steps are put into the calls of an
action. What it performs is told apart from what it notes in the log: which action, with which byte,
and what the clock showed.

* `makes_iff`: the calls of an action are those of the table.
* `execute_cases`: a wake finds nothing, re-arms the timer, or performs the pending request.
* `execute_notes`: the calls that a wake notes are those of the action it performs.
* `wait_cases`: a wait takes a wake that is outstanding, sleeps until the timer expires, or goes idle.
* `advance_cases`: when ticks pass, the timer expires or it does not.
-/

namespace Firmware.Schedule

/-- An action that was performed. -/
structure Performance where
  action : Action
  /-- The byte that was handed to the action. -/
  aux : UInt8
  /-- The clock at the time. -/
  clock : Clock
deriving DecidableEq

/-- The calls of an action that was performed. -/
def Performance.calls (p : Performance) : List Call := p.action.calls p.aux

/-- What a wake comes to that performs a request. -/
def Request.worked (r : Request) : Worked :=
  if .reset ∈ r.action.calls r.aux then .reset else .performed r.action

namespace Event

/-- The call that an entry tells of. -/
def call? : Event → Option Call
  | call c => some c
  | _ => none

/-- Whether an entry tells of a start of the timer, be it refused. -/
def isStart : Event → Bool
  | start _ | startFailed _ => true
  | _ => false

end Event

namespace Action

/-- What is to be called for an action, in order: the table of all actions but the empty one. The byte
of an install says what is erased before it. -/
inductive Makes (aux : UInt8) : Action → List Call → Prop
  | reboot : Makes aux .reboot [.reset]
  | clearCredentialsAndReboot :
    Makes aux .clearCredentialsAndReboot [.clearCredentialCache, .reset]
  | reconnect :
    Makes aux .reconnect [.disconnect, .waitDisconnected disconnectTimeout, .connectAndWait]
  | clearAndReconnect :
    Makes aux .clearAndReconnect
      [.disconnect, .waitDisconnected disconnectTimeout, .clearCredentialCache, .connectAndWait]
  | installOverApplication (h : aux = 1) :
    Makes aux .firmwareInstall [.eraseAppParameters, .rebootAndInstall]
  | installOverEverything (h : aux = 2) :
    Makes aux .firmwareInstall [.eraseAllStorage, .rebootAndInstall]
  | install (h : aux ≠ 1 ∧ aux ≠ 2) : Makes aux .firmwareInstall [.rebootAndInstall]

theorem eraseCalls_of_ne {aux : UInt8} (h1 : aux ≠ 1) (h2 : aux ≠ 2) : eraseCalls aux = [] := by
  have hne1 : aux.toNat ≠ 1 := fun h => h1 (UInt8.toNat_inj.1 h)
  have hne2 : aux.toNat ≠ 2 := fun h => h2 (UInt8.toNat_inj.1 h)
  unfold eraseCalls
  rcases hcode : aux.toNat with _ | _ | _ | n
  · rfl
  · exact absurd hcode hne1
  · exact absurd hcode hne2
  · rfl

/-- **The calls of an action are those of the table.** -/
theorem makes_iff {action : Action} {aux : UInt8} {calls : List Call} :
    action.Makes aux calls ↔ action ≠ .nothing ∧ calls = action.calls aux := by
  constructor
  · rintro (_ | _ | _ | _ | rfl | rfl | ⟨h1, h2⟩)
    case install => exact ⟨by decide, by rw [Action.calls, eraseCalls_of_ne h1 h2]; rfl⟩
    all_goals exact ⟨by decide, rfl⟩
  · rintro ⟨hne, rfl⟩
    cases action with
    | nothing => exact absurd rfl hne
    | reboot => exact .reboot
    | clearCredentialsAndReboot => exact .clearCredentialsAndReboot
    | reconnect => exact .reconnect
    | clearAndReconnect => exact .clearAndReconnect
    | firmwareInstall =>
      by_cases h1 : aux = 1
      · rw [h1]
        exact .installOverApplication rfl
      by_cases h2 : aux = 2
      · rw [h2]
        exact .installOverEverything rfl
      · rw [Action.calls, eraseCalls_of_ne h1 h2]
        exact .install ⟨h1, h2⟩

/-- A reset is the last thing that an action does. -/
theorem reset_notMem_dropLast (action : Action) (aux : UInt8) :
    .reset ∉ (action.calls aux).dropLast := by
  cases action with
  | firmwareInstall =>
    rw [calls, List.dropLast_concat, eraseCalls]
    split <;> decide
  | _ => simp [calls, disconnectCalls]

end Action

namespace Device

/-- No start to come will be refused. -/
def Willing (device : Device) : Prop := ∀ outcome ∈ device.outcomes, outcome = none

variable {device : Device}

theorem start_of_willing (h : device.Willing) (delay : UInt32) :
    device.start delay = (none, { device with
      outcomes := device.outcomes.tail
      armed := some (device.expiry delay) }.record (.start delay)) := by
  have hnone : device.outcomes.head?.join = none := by
    cases houtcomes : device.outcomes with
    | nil => rfl
    | cons outcome outcomes => exact h outcome (by rw [houtcomes]; exact List.mem_cons_self)
  rw [start, hnone]

theorem Willing.tail {later : Device} (h : device.Willing)
    (hlater : later.outcomes = device.outcomes.tail) : later.Willing := fun outcome houtcome =>
  h outcome (List.mem_of_mem_tail (by rwa [← hlater]))

theorem clock_start (delay : UInt32) (device : Device) :
    (device.start delay).2.clock = device.clock := by
  unfold start
  split <;> rfl

/-- A start leaves one entry in the log, whether it is refused or not. -/
theorem log_start (delay : UInt32) (device : Device) :
    ∃ event : Event, (device.start delay).2.log = device.log ++ [event] ∧ event.call? = none ∧
      event.isStart = true := by
  unfold start
  split
  · exact ⟨.startFailed delay, rfl, rfl, rfl⟩
  · exact ⟨.start delay, rfl, rfl, rfl⟩

end Device

theorem Scheduler.device_rearm_of_pending {s : Scheduler} {seen : Request} {remaining : Nat}
    (h : s.pending = some seen) :
    (s.rearm seen remaining).device = (s.device.start (delayOf remaining)).2 := by
  rw [rearm, if_pos h]
  split <;> next heq => rw [heq]

/-- To the hardware a re-arm is one start, or nothing. -/
theorem Scheduler.device_rearm (seen : Request) (remaining : Nat) (s : Scheduler) :
    (s.rearm seen remaining).device = (s.device.start (delayOf remaining)).2 ∨
      (s.rearm seen remaining).device = s.device := by
  by_cases h : s.pending = some seen
  · exact Or.inl (device_rearm_of_pending h)
  · right
    rw [rearm_of_ne h]

namespace Bench

/-- What is performed by a wake of the worker that comes now. -/
def executed (bench : Bench) : List Performance :=
  match bench.scheduler.look.1 with
  | .due r => [⟨r.action, r.aux, bench.device.clock⟩]
  | _ => []

/-- The bench after a request has been taken and its action performed. -/
def served (r : Request) (bench : Bench) : Bench :=
  ⟨⟨none, { bench.device with
    log := bench.device.log ++ (r.action.calls r.aux).map Event.call }⟩, bench.hooks⟩

/-- Between two benches the log has grown by some calls and some starts of the timer. -/
def Notes (bench later : Bench) (calls : List Call) (starts : Nat) : Prop :=
  ∃ noted, later.device.log = bench.device.log ++ noted ∧
    noted.filterMap Event.call? = calls ∧ noted.countP Event.isStart = starts

variable {bench later last : Bench} {r : Request}

theorem Notes.refl (bench : Bench) : Notes bench bench [] 0 :=
  ⟨[], (List.append_nil _).symm, rfl, rfl⟩

theorem Notes.trans {calls calls' : List Call} {starts starts' : Nat}
    (h : Notes bench later calls starts) (h' : Notes later last calls' starts') :
    Notes bench last (calls ++ calls') (starts + starts') := by
  obtain ⟨noted, hlog, hcalls, hstarts⟩ := h
  obtain ⟨noted', hlog', hcalls', hstarts'⟩ := h'
  refine ⟨noted ++ noted', ?_, ?_, ?_⟩
  · rw [hlog', hlog, List.append_assoc]
  · rw [List.filterMap_append, hcalls, hcalls']
  · rw [List.countP_append, hstarts, hstarts']

theorem served_notes (r : Request) (bench : Bench) :
    Notes bench (bench.served r) (r.action.calls r.aux) 0 := by
  refine ⟨_, rfl, ?_, ?_⟩
  · rw [List.filterMap_map]
    exact List.filterMap_some
  · rw [List.countP_map]
    exact List.countP_eq_zero.2 fun _ _ => Bool.false_ne_true

/-- The bench after the timer has been armed for the rest of the delay of a request. -/
def rearmed (r : Request) (bench : Bench) : Bench := bench.onDevice fun device =>
  { device with
    outcomes := device.outcomes.tail
    armed := some r.deadline
    log := device.log ++ [.start (Scheduler.delayOf (r.deadline - device.now))] }

/-- A re-arm that is not refused sets the timer to the very time at which the request is due. -/
theorem rearm_eq_rearmed (hwilling : bench.device.Willing)
    (hpending : bench.scheduler.pending = some r) (hmade : r.start ≤ bench.device.now)
    (hearly : bench.device.now < r.deadline) :
    bench.onScheduler (·.rearm r (r.deadline - bench.device.now)) = bench.rearmed r := by
  have hremaining := Request.deadline_sub_le hmade
  have hrange := r.deadline_lt
  have hexpiry : bench.device.expiry (Scheduler.delayOf (r.deadline - bench.device.now)) =
      r.deadline := by
    rw [Device.expiry, Scheduler.toNat_delayOf hremaining]
    simp only [timeLimit, UInt64.size] at hrange ⊢
    omega
  have hstart := Device.start_of_willing hwilling
    (Scheduler.delayOf (r.deadline - bench.device.now))
  rw [hexpiry] at hstart
  unfold device at hstart
  simp only [onScheduler, Scheduler.rearm, if_pos hpending, device, hstart]
  rfl

theorem rearmed_notes (r : Request) (bench : Bench) : Notes bench (bench.rearmed r) [] 1 :=
  ⟨_, rfl, rfl, rfl⟩

/-- A re-arm notes no call. -/
theorem rearm_notes (seen : Request) (remaining : Nat) (bench : Bench) :
    ∃ starts, Notes bench (bench.onScheduler (·.rearm seen remaining)) [] starts := by
  rcases bench.scheduler.device_rearm seen remaining with hdevice | hdevice
  · obtain ⟨event, hlog, hcall, hstart⟩ :=
      bench.device.log_start (Scheduler.delayOf remaining)
    refine ⟨1, [event], (congrArg Device.log hdevice).trans hlog, ?_, ?_⟩
    · rw [List.filterMap_cons_none hcall, List.filterMap_nil]
    · rw [List.countP_cons_of_pos hstart, List.countP_nil]
  · exact ⟨0, [], (congrArg Device.log hdevice).trans (List.append_nil _).symm, rfl, rfl⟩

theorem clock_rearm (seen : Request) (remaining : Nat) (bench : Bench) :
    (bench.onScheduler (·.rearm seen remaining)).device.clock = bench.device.clock := by
  rcases bench.scheduler.device_rearm seen remaining with hdevice | hdevice
  · exact (congrArg Device.clock hdevice).trans (Device.clock_start _ bench.device)
  · exact congrArg Device.clock hdevice

/-! ## A wake -/

section

variable {nest : List Step → Bench → Bench} (hnest : ∀ bench, nest [] bench = bench)

/-- The calls of an action, where no steps are put into them. -/
theorem perform_eq {calls : List Call} (hlast : .reset ∉ calls.dropLast) (bench : Bench)
    (hhooks : bench.hooks = []) :
    perform nest calls bench = (decide (.reset ∈ calls), bench.onDevice fun device =>
      { device with log := device.log ++ calls.map Event.call }) := by
  induction calls generalizing bench with
  | nil =>
    rw [perform, List.map_nil]
    simp [onDevice, onScheduler]
  | cons call calls ih =>
    have hinvoke : invoke nest call bench = bench.onDevice (·.record (.call call)) := by
      simp only [invoke, onDevice, onScheduler, hhooks, List.lookup_nil]
    rw [perform, hinvoke]
    by_cases hreset : call = .reset
    · -- a reset is the last of the calls
      cases calls with
      | nil =>
        rw [if_pos hreset, hreset]
        rfl
      | cons next left => exact absurd (by rw [hreset]; exact List.mem_cons_self) hlast
    · have hrest : .reset ∉ calls.dropLast := by
        cases calls with
        | nil => exact List.not_mem_nil
        | cons next left => exact fun hmem => hlast (List.mem_cons_of_mem _ hmem)
      rw [if_neg hreset, ih hrest (bench.onDevice (·.record (.call call))) hhooks]
      simp [onDevice, onScheduler, Device.record, Ne.symm hreset]

include hnest

/-- **A wake in closed form**: there is nothing to do, or the pending request is early and the timer is
re-armed for it, or it is performed. -/
theorem execute_cases (bench : Bench) (hhooks : bench.hooks = []) :
    (bench.scheduler.pending = none ∧ bench.executed = [] ∧
      execute nest [] bench = (.nothing, bench)) ∨
    (∃ r, bench.scheduler.pending = some r ∧ r.delay ≠ 0 ∧ bench.device.now < r.deadline ∧
      bench.executed = [] ∧ execute nest [] bench =
        (.nothing, bench.onScheduler (·.rearm r (r.deadline - bench.device.now)))) ∨
    (∃ r, bench.scheduler.pending = some r ∧
      (r.delay = 0 ∨ r.deadline ≤ bench.device.now) ∧
      bench.executed = [⟨r.action, r.aux, bench.device.clock⟩] ∧
      execute nest [] bench = (r.worked, bench.served r)) := by
  rcases bench.scheduler.look_cases with ⟨hpending, heq⟩ | ⟨r, hpending, hdelay, hearly, heq⟩ |
    ⟨r, hpending, hdue, heq⟩
  · left
    refine ⟨hpending, by rw [executed, heq], ?_⟩
    simp only [execute, heq, hnest]
  · right; left
    refine ⟨r, hpending, hdelay, hearly, by rw [executed, heq], ?_⟩
    simp only [execute, heq, hnest]
    rfl
  · right; right
    refine ⟨r, hpending, hdue, by rw [executed, heq], ?_⟩
    simp only [execute, heq, hnest]
    rw [perform_eq (r.action.reset_notMem_dropLast r.aux)]
    · simp only [decide_eq_true_eq]
      rfl
    · exact hhooks

/-- A wake that comes when nothing is pending does nothing. -/
theorem execute_of_pending_none (bench : Bench) (hhooks : bench.hooks = [])
    (hpending : bench.scheduler.pending = none) :
    bench.executed = [] ∧ execute nest [] bench = (.nothing, bench) := by
  rcases execute_cases hnest bench hhooks with ⟨-, hexecuted, heq⟩ | ⟨r, hr, -⟩ | ⟨r, hr, -⟩
  · exact ⟨hexecuted, heq⟩
  · rw [hpending] at hr; cases hr
  · rw [hpending] at hr; cases hr

/-- A wake that comes too early re-arms the timer, on a platform that refuses no start. -/
theorem execute_of_early (bench : Bench) (hhooks : bench.hooks = []) (hwilling : bench.device.Willing)
    (hpending : bench.scheduler.pending = some r) (hdelay : r.delay ≠ 0)
    (hmade : r.start ≤ bench.device.now) (hearly : bench.device.now < r.deadline) :
    bench.executed = [] ∧ execute nest [] bench = (.nothing, bench.rearmed r) := by
  rcases execute_cases hnest bench hhooks with ⟨hnone, -⟩ | ⟨seen, hseen, -, -, hexecuted, heq⟩ |
    ⟨taken, htaken, hdue, -⟩
  · rw [hpending] at hnone; cases hnone
  · rw [hpending] at hseen
    cases hseen
    rw [rearm_eq_rearmed hwilling hpending hmade hearly] at heq
    exact ⟨hexecuted, heq⟩
  · rw [hpending] at htaken
    cases htaken
    exact absurd hdue (not_or.2 ⟨hdelay, Nat.not_le_of_lt hearly⟩)

/-- A wake that comes when the pending request is due performs it. -/
theorem execute_of_due (bench : Bench) (hhooks : bench.hooks = [])
    (hpending : bench.scheduler.pending = some r)
    (hdue : r.delay = 0 ∨ r.deadline ≤ bench.device.now) :
    bench.executed = [⟨r.action, r.aux, bench.device.clock⟩] ∧
      execute nest [] bench = (r.worked, bench.served r) := by
  rcases execute_cases hnest bench hhooks with ⟨hnone, -⟩ | ⟨seen, hseen, hdelay, hearly, -⟩ |
    ⟨taken, htaken, -, hexecuted, heq⟩
  · rw [hpending] at hnone; cases hnone
  · rw [hpending] at hseen
    cases hseen
    exact absurd hdue (not_or.2 ⟨hdelay, Nat.not_le_of_lt hearly⟩)
  · rw [hpending] at htaken
    cases htaken
    exact ⟨hexecuted, heq⟩

/-- The calls that a wake notes are those of what it performs. -/
theorem execute_notes (bench : Bench) (hhooks : bench.hooks = []) :
    ∃ starts, Notes bench (execute nest [] bench).2
      (bench.executed.flatMap Performance.calls) starts := by
  rcases execute_cases hnest bench hhooks with ⟨-, hexecuted, heq⟩ | ⟨r, -, -, -, hexecuted, heq⟩ |
    ⟨r, -, -, hexecuted, heq⟩ <;> rw [hexecuted, heq]
  · exact ⟨0, Notes.refl bench⟩
  · exact rearm_notes r _ bench
  · refine ⟨0, ?_⟩
    simpa [Performance.calls] using served_notes r bench

/-- A wake takes no time and puts no steps into calls. -/
theorem execute_frame (bench : Bench) (hhooks : bench.hooks = []) :
    (execute nest [] bench).2.device.clock = bench.device.clock ∧
      (execute nest [] bench).2.hooks = [] := by
  rcases execute_cases hnest bench hhooks with ⟨-, -, heq⟩ | ⟨r, -, -, -, -, heq⟩ |
    ⟨r, -, -, -, heq⟩ <;> rw [heq]
  · exact ⟨rfl, hhooks⟩
  · exact ⟨clock_rearm r _ bench, hhooks⟩
  · exact ⟨rfl, hhooks⟩

end

/-! ## A wait -/

/-- The bench after the worker has slept until the timer expired. -/
def slept (expiry : Nat) (bench : Bench) : Bench := bench.onDevice fun device =>
  { device with
    clock := device.clock.advance (device.clock.ticksFor (expiry - device.now))
    armed := none
    notified := true
    log := device.log ++ [.wait, .notify] }

/-- **A wait in closed form**, for a worker that may sleep. -/
theorem wait_cases (bench : Bench) :
    (bench.device.notified = true ∧ bench.wait true = bench.onDevice (·.record .wait)) ∨
    (bench.device.notified = false ∧
      ∃ expiry, bench.device.armed = some expiry ∧ bench.wait true = bench.slept expiry) ∨
    (bench.device.notified = false ∧ bench.device.armed = none ∧
      bench.wait true = bench.onDevice (·.record .wait)) := by
  have hnotified : (bench.onDevice (·.record .wait)).device.notified = bench.device.notified := rfl
  have harmed : (bench.onDevice (·.record .wait)).device.armed = bench.device.armed := rfl
  simp only [wait, hnotified, Bool.true_and]
  cases hcases : bench.device.notified with
  | true => exact Or.inl ⟨rfl, rfl⟩
  | false =>
    right
    cases hexpiry : bench.device.armed with
    | none =>
      right
      refine ⟨rfl, rfl, ?_⟩
      simp only [sleep, harmed, hexpiry]
      rfl
    | some expiry =>
      left
      refine ⟨rfl, expiry, rfl, ?_⟩
      simp only [sleep, harmed, hexpiry]
      simp [slept, onDevice, onScheduler, Device.record, Device.tick, Scheduler.timerExpired,
        Device.notify, device, Device.now]

/-- A wait takes a wake that is outstanding, and no time. -/
theorem wait_of_notified (h : bench.device.notified = true) :
    bench.wait true = bench.onDevice (·.record .wait) := by
  rcases bench.wait_cases with ⟨-, heq⟩ | ⟨hfalse, -⟩ | ⟨hfalse, -⟩
  · exact heq
  · rw [h] at hfalse; cases hfalse
  · rw [h] at hfalse; cases hfalse

/-- A wait notes no call and no start. -/
theorem wait_notes (bench : Bench) : Notes bench (bench.wait true) [] 0 := by
  rcases bench.wait_cases with ⟨-, heq⟩ | ⟨-, expiry, -, heq⟩ | ⟨-, -, heq⟩ <;> rw [heq]
  · exact ⟨[.wait], rfl, rfl, rfl⟩
  · exact ⟨[.wait, .notify], rfl, rfl, rfl⟩
  · exact ⟨[.wait], rfl, rfl, rfl⟩

/-! ## Time that passes -/

/-- The bench some ticks later, when the timer has expired. -/
def expired (ticks : Nat) (bench : Bench) : Bench := bench.onDevice fun device =>
  { device.tick ticks with armed := none }.notify

/-- **Ticks that pass, in closed form**: the timer expires if the clock has reached its expiry. -/
theorem advance_cases (ticks : Nat) (bench : Bench) :
    (∃ e, bench.device.armed = some e ∧ e ≤ (bench.device.clock.advance ticks).now ∧
      bench.advance ticks = (true, bench.expired ticks)) ∨
    ((∀ e, bench.device.armed = some e → (bench.device.clock.advance ticks).now < e) ∧
      bench.advance ticks = (false, bench.onDevice (·.tick ticks))) := by
  have harmed : (bench.onDevice (·.tick ticks)).device.armed = bench.device.armed := rfl
  have hnow : (bench.onDevice (·.tick ticks)).device.now =
      (bench.device.clock.advance ticks).now := rfl
  simp only [advance, harmed, hnow]
  cases bench.device.armed with
  | none => exact Or.inr ⟨fun _ h => (nomatch h), rfl⟩
  | some expiry =>
    by_cases hexpired : expiry ≤ (bench.device.clock.advance ticks).now
    · left
      refine ⟨expiry, rfl, hexpired, ?_⟩
      simp only [if_pos hexpired]
      rfl
    · right
      refine ⟨?_, by simp only [if_neg hexpired]⟩
      rintro e ⟨⟩
      exact Nat.lt_of_not_le hexpired

end Bench

end Firmware.Schedule
