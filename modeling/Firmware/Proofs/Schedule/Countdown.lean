import Firmware.Proofs.Schedule.Origin
import Firmware.Proofs.Schedule.Wakes

/-!
# The time left counts down

What is shown of the time left after a request was accepted, in a run in which nothing else is asked
for: calls of the worker interleave as they like, the timer runs out when it does or does not, and
starts of the timer succeed or fail.

* `pending_step_of_some`: a request stays pending unless it is taken or a re-arm that fails drops it.
* `remaining_zero_iff`: no time is left exactly if a wake that came now would perform the action.
* `remaining_counts_down`: the time left is what it should be, never goes up, and then is not shown any
  more.
-/

namespace Firmware.Schedule

theorem Request.worked_ne_nothing (r : Request) : r.worked ≠ .nothing := by
  unfold worked
  split <;> exact Worked.noConfusion

/-- What a wake comes to is decided when the worker looks at what is pending. -/
theorem Bench.execute_of_look (nest : List Step → Bench → Bench) (preempt : List Step)
    (bench : Bench) : (bench.execute nest preempt).1 =
      match bench.scheduler.look.1 with
      | .due r => r.worked
      | _ => .nothing := by
  rcases hlook : bench.scheduler.look with ⟨look, scheduler⟩
  cases look with
  | nothing | early => simp only [execute, hlook]
  | due r => simp only [execute, hlook, perform_reset, Request.worked]

namespace Scheduler

variable {s : Scheduler} {r : Request}

/-- The time left until a request is due, once it has been made. -/
theorem remaining_of_pending (hpending : s.pending = some r) (hmade : r.start ≤ s.device.now) :
    s.remaining = some (r.deadline - s.device.now, r.action) ∧
      r.deadline - s.device.now ≤ r.delay.toNat := by
  have hle := Request.deadline_sub_le hmade
  have hlt := r.delay.toNat_lt
  have hmin : min (r.deadline - s.device.now) delayLimit = r.deadline - s.device.now := by
    simp only [delayLimit, UInt32.size]
    omega
  refine ⟨?_, hle⟩
  rw [remaining, hpending, Option.map_some, hmin]

/-- No time is left exactly if a wake that came now would perform the action, whatever came into
it. -/
theorem remaining_zero_iff (hpending : s.pending = some r) (hmade : r.start ≤ s.device.now) :
    s.remaining = some (0, r.action) ↔
      ∀ nest preempt hooks, (Bench.execute nest preempt ⟨s, hooks⟩).1 = r.worked := by
  have hdue : s.remaining = some (0, r.action) ↔ s.look.1 = .due r := by
    rw [(remaining_of_pending hpending hmade).1, look_eq_due_iff]
    simp only [Option.some.injEq, Prod.mk.injEq, and_true, hpending, true_and, Nat.sub_eq_zero_iff_le]
    refine ⟨Or.inr, ?_⟩
    rintro (hzero | hle)
    · exact Nat.le_trans (Request.deadline_le_start hzero) hmade
    · exact hle
  rw [hdue]
  constructor
  · intro hlook nest preempt hooks
    rw [Bench.execute_of_look, hlook]
  · intro hexecute
    have hworked := hexecute (fun _ bench => bench) [] []
    rw [Bench.execute_of_look] at hworked
    rcases s.look_cases with ⟨hnone, -⟩ | ⟨seen, -, -, -, heq⟩ | ⟨taken, htaken, -, heq⟩
    · rw [hpending] at hnone; cases hnone
    · rw [heq] at hworked
      exact absurd hworked.symm r.worked_ne_nothing
    · obtain rfl : taken = r := Option.some.inj (htaken.symm.trans hpending)
      rw [heq]

end Scheduler

namespace World

variable {w : World} {m : Move} {r : Request}

/-- In the move the worker re-arms the timer for a request, which the timer refuses. -/
def Drops (w : World) (m : Move) (r : Request) : Prop :=
  ∃ call remaining error, m = .resume call ∧ w.rest call = some (.rearm r remaining) ∧
    w.scheduler.pending = some r ∧
    (w.scheduler.device.start (Scheduler.delayOf remaining)).1 = some error

/-- The move makes away with a request: the worker takes it, or cannot re-arm the timer for it. -/
def Ends (w : World) (m : Move) (r : Request) : Prop :=
  (∃ call, w.Takes m call r) ∨ w.Drops m r

theorem pending_of_ends (h : w.Ends m r) : (w.step m).scheduler.pending = none := by
  rcases h with ⟨call, rfl, hrest, hlook⟩ | ⟨call, remaining, error, rfl, hrest, hpending, hstart⟩
  · obtain ⟨-, hnone, -⟩ := Scheduler.look_due (Prod.ext hlook rfl)
    simp only [step, hrest, Rest.next, leave]
    exact hnone
  · simp only [step, hrest, Rest.next, leave, Scheduler.rearm, if_pos hpending]
    split
    next device heq => rw [heq] at hstart; cases hstart
    next => rfl

/-- Going on with a call makes a request vanish only if the call takes it, drops it, or is a fresh
start. -/
theorem ends_of_next {call : Nat} {rest : Rest} (hrest : w.rest call = some rest)
    (hpending : w.scheduler.pending = some r) (hforget : rest ≠ .forget)
    (hafter : (rest.next w.scheduler).2.pending = none) : w.Ends (.resume call) r := by
  cases rest with
  | settle action delay failure =>
    simp only [Rest.next, Scheduler.settle] at hafter
    split at hafter <;> rw [hpending] at hafter <;> cases hafter
  | forget => exact absurd rfl hforget
  | look =>
    rcases w.scheduler.look_cases with ⟨hnone, -⟩ | ⟨seen, -, -, -, heq⟩ | ⟨taken, htaken, -, heq⟩
    · rw [hpending] at hnone; cases hnone
    · simp only [Rest.next, heq] at hafter
      rw [hpending] at hafter; cases hafter
    · obtain rfl : taken = r := Option.some.inj (htaken.symm.trans hpending)
      exact Or.inl ⟨call, rfl, hrest, by rw [heq]⟩
  | rearm seen remaining =>
    simp only [Rest.next, Scheduler.rearm] at hafter
    split at hafter
    next hseen =>
      obtain rfl : seen = r := Option.some.inj (hseen.symm.trans hpending)
      split at hafter
      next => rw [hpending] at hafter; cases hafter
      next error device heq =>
        exact Or.inr ⟨call, remaining, error, rfl, hrest, hpending, by rw [heq]⟩
    next => rw [hpending] at hafter; cases hafter
  | perform taken =>
    simp only [Rest.next] at hafter
    rw [hpending] at hafter; cases hafter
  | calls left =>
    cases left <;> simp only [Rest.next] at hafter <;> rw [hpending] at hafter <;> cases hafter

/-- **A request stays pending unless it is taken or dropped**, where nothing is decided anew. -/
theorem pending_step_of_some (hpending : w.scheduler.pending = some r) (hdecides : ¬ w.Decides m) :
    (w.step m).scheduler.pending = some r ∨
      (w.step m).scheduler.pending = none ∧ w.Ends m r := by
  cases hafter : (w.step m).scheduler.pending with
  | some r' =>
    left
    rcases pending_step hafter with ⟨action, delay, aux, hm, -⟩ | ⟨hbefore, -, -⟩
    · exact absurd (Or.inl ⟨action, delay, aux, hm⟩) hdecides
    · rw [← hpending, hbefore]
  | none =>
    right
    refine ⟨rfl, ?_⟩
    cases m with
    | request action delay aux => exact absurd (Or.inl ⟨action, delay, aux, rfl⟩) hdecides
    | resume call =>
      cases hrest : w.rest call with
      | none =>
        simp only [step, hrest] at hafter
        exact absurd (hpending.symm.trans hafter) (by simp)
      | some rest =>
        simp only [step, hrest, leave] at hafter
        refine ends_of_next hrest hpending ?_ hafter
        rintro rfl
        exact hdecides (Or.inr ⟨call, rfl, hrest⟩)
    | wait =>
      simp only [step] at hafter
      split at hafter <;> exact absurd (hpending.symm.trans hafter) (by simp)
    | _ => exact absurd (hpending.symm.trans hafter) (by simp)

/-- Where nothing is decided anew, nothing becomes pending. -/
theorem pending_step_of_none (hpending : w.scheduler.pending = none) (hdecides : ¬ w.Decides m) :
    (w.step m).scheduler.pending = none := by
  cases hafter : (w.step m).scheduler.pending with
  | none => rfl
  | some r =>
    rcases pending_step hafter with ⟨action, delay, aux, hm, -⟩ | ⟨hbefore, -, -⟩
    · exact absurd (Or.inl ⟨action, delay, aux, hm⟩) hdecides
    · rw [hpending] at hbefore; cases hbefore

end World

namespace Run

variable {run : Run} {i n : Nat} {r : Request}

variable (run) in
/-- In move `n` a request goes: the worker takes it, or cannot re-arm the timer for it. -/
def Ends (n : Nat) (r : Request) : Prop := (run.world n).Ends (run.move n) r

/-- A request that was accepted is pending. -/
theorem Requests.pending (h : run.Requests i r) : (run.scheduler (i + 1)).pending = some r := by
  obtain ⟨hmove, hne, hfailure, hstart⟩ := h
  rw [scheduler_request hmove, (Scheduler.request_accepted hne hfailure).1, ← hstart]

/-- What was accepted is pending until it goes. -/
theorem pending_or_ends (h : run.Requests i r) (hin : i < n)
    (hquiet : ∀ j, i < j → j < n → ¬ run.Decides j) :
    (run.scheduler n).pending = some r ∨ ∃ j, i < j ∧ j < n ∧ run.Ends j r := by
  induction hin with
  | refl => exact Or.inl h.pending
  | @step n hin ih =>
    rcases ih fun j hij hjn => hquiet j hij (Nat.lt_succ_of_lt hjn) with hpending | ⟨j, hij, hjn, hends⟩
    · rcases World.pending_step_of_some hpending (hquiet n hin n.lt_succ_self) with hstays |
        ⟨-, hends⟩
      · exact Or.inl hstays
      · exact Or.inr ⟨n, hin, n.lt_succ_self, hends⟩
    · exact Or.inr ⟨j, hij, Nat.lt_succ_of_lt hjn, hends⟩

/-- What has gone does not come back. -/
theorem pending_of_ends {j : Nat} (hends : run.Ends j r) (hjn : j < n)
    (hquiet : ∀ k, j < k → k < n → ¬ run.Decides k) : (run.scheduler n).pending = none := by
  induction hjn with
  | refl => exact World.pending_of_ends hends
  | @step n hjn ih =>
    have hnone := ih fun k hjk hkn => hquiet k hjk (Nat.lt_succ_of_lt hkn)
    exact World.pending_step_of_none hnone (hquiet n hjn n.lt_succ_self)

theorem Requests.made (h : run.Requests i r) (hin : i ≤ n) (hclock : run.Steady i n) :
    r.start ≤ (run.scheduler n).device.now := by
  rw [h.2.2.2]
  exact Clock.now_mono (hclock.before hin)

/-- **The time left counts down.** While nothing else is asked for, a request that was accepted is
pending until the worker takes it or cannot re-arm the timer for it. Till then the time left is the time
until it is due, which is no more than its delay and no more than it was at any moment before, and it
is zero exactly if a wake that came now would perform the action. After that no time is shown. -/
theorem remaining_counts_down (h : run.Requests i r) (hin : i < n) (hclock : run.Steady i n)
    (hquiet : ∀ j, i < j → j < n → ¬ run.Decides j) :
    ((run.scheduler n).pending = some r →
      (run.scheduler n).remaining =
        some (r.deadline - (run.scheduler n).device.now, r.action) ∧
      r.deadline - (run.scheduler n).device.now ≤ r.delay.toNat ∧
      (∀ m, i < m → m ≤ n → ∃ before ≥ r.deadline - (run.scheduler n).device.now,
        (run.scheduler m).remaining = some (before, r.action)) ∧
      ((run.scheduler n).remaining = some (0, r.action) ↔
        ∀ nest preempt hooks,
          (Bench.execute nest preempt ⟨run.scheduler n, hooks⟩).1 = r.worked)) ∧
    ((run.scheduler n).pending ≠ some r → ∃ j, i < j ∧ j < n ∧ run.Ends j r) ∧
    ((∃ j, i < j ∧ j < n ∧ run.Ends j r) → (run.scheduler n).remaining = none) := by
  have hgone : (∃ j, i < j ∧ j < n ∧ run.Ends j r) → (run.scheduler n).pending = none := by
    rintro ⟨j, hij, hjn, hends⟩
    exact pending_of_ends hends hjn fun k hjk => hquiet k (Nat.lt_trans hij hjk)
  refine ⟨fun hpending => ?_, (pending_or_ends h hin hquiet).resolve_left, fun hends => ?_⟩
  · have hmade := h.made (Nat.le_of_lt hin) hclock
    obtain ⟨hremaining, hle⟩ := Scheduler.remaining_of_pending hpending hmade
    refine ⟨hremaining, hle, fun m him hmn => ?_, Scheduler.remaining_zero_iff hpending hmade⟩
    -- what is pending now was pending before, with a clock that showed no later time
    have hbefore : (run.scheduler m).pending = some r := by
      rcases pending_or_ends h him fun j hij hjm => hquiet j hij (Nat.lt_of_lt_of_le hjm hmn) with
        hbefore | ⟨j, hij, hjm, hends⟩
      · exact hbefore
      · rw [hgone ⟨j, hij, Nat.lt_of_lt_of_le hjm hmn, hends⟩] at hpending
        cases hpending
    have hnow := Clock.now_mono ((hclock.mono (Nat.le_of_lt him) (Nat.le_refl n)).before hmn)
    have hmade' := h.made (Nat.le_of_lt him) (hclock.mono (Nat.le_refl i) hmn)
    exact ⟨_, Nat.sub_le_sub_left hnow _, (Scheduler.remaining_of_pending hbefore hmade').1⟩
  · rw [Scheduler.remaining, hgone hends]
    rfl

/-- A wake that comes too early, after which the timer is armed for the rest of the delay. -/
def rearmed : Run where
  device := Device.atRest ⟨0, 1000⟩
  move n := [.request .reconnect 50 0, .resume 0, .setClock ⟨20, 1000⟩, .wake, .wait, .resume 4,
    .resume 4].getD n (.setClock ⟨60, 1000⟩)

theorem rearmed_counts_down :
    rearmed.Requests 0 ⟨.reconnect, 50, 0, 0⟩ ∧ rearmed.Steady 0 8 ∧
      (rearmed.scheduler 7).device.armed = some 50 ∧
      (rearmed.scheduler 7).remaining = some (30, .reconnect) ∧
      (rearmed.scheduler 8).remaining = some (0, .reconnect) ∧
      ∀ nest preempt hooks, (Bench.execute nest preempt ⟨rearmed.scheduler 8, hooks⟩).1 =
        .performed .reconnect := by
  have hrequests : rearmed.Requests 0 ⟨.reconnect, 50, 0, 0⟩ := ⟨rfl, by decide, rfl, rfl⟩
  have hclock : rearmed.Steady 0 8 := by
    intro m _ hm
    rcases m with _ | _ | _ | _ | _ | _ | _ | _ | m
    case succ.succ.succ.succ.succ.succ.succ.succ => omega
    all_goals exact ⟨rfl, by decide⟩
  have hquiet : ∀ j, 0 < j → j < 8 → ¬ rearmed.Decides j := by
    rintro j h0 h8 (⟨_, _, _, hm⟩ | ⟨call, hm, hrest⟩)
    · rcases j with _ | _ | _ | _ | _ | _ | _ | _ | j
      case zero | succ.succ.succ.succ.succ.succ.succ.succ => omega
      all_goals exact Move.noConfusion hm
    · rcases j with _ | _ | _ | _ | _ | _ | _ | _ | j
      case zero | succ.succ.succ.succ.succ.succ.succ.succ => omega
      all_goals cases hm
      all_goals cases hrest
  have hcounts := remaining_counts_down hrequests (by decide) hclock hquiet
  exact ⟨hrequests, hclock, rfl, rfl, rfl, (hcounts.1 rfl).2.2.2.1 rfl⟩

end Run

end Firmware.Schedule
