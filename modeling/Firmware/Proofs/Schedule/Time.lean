import Firmware.Proofs.Schedule.Interleaving

/-!
# Time in a run

What calls that interleave make of a clock that only goes forward. The timer is set from what the clock
showed when a request was made, or when the worker looked at it and found it early; whichever it was,
and however late the timer is set then, it does not run out before the request is due.

* `now_mono`: a clock that goes on shows no earlier time.
* `le_now_advance_ticksFor`: the ticks for some milliseconds are enough of them.
* `armed_step`: where an armed timer comes from, one move earlier.
* `punctual_step`, `punctual_world`: no armed timer runs out before the pending request is due.
-/

namespace Firmware.Schedule

namespace Clock

/-- A clock has gone on: at the same rate, and not backwards. -/
structure Before (c c' : Clock) : Prop where
  frequency : c'.frequency = c.frequency
  ticks : c.ticks.toNat ≤ c'.ticks.toNat

variable {c c' c'' : Clock}

theorem Before.refl (c : Clock) : c.Before c := ⟨rfl, Nat.le_refl _⟩

theorem Before.trans (h : c.Before c') (h' : c'.Before c'') : c.Before c'' :=
  ⟨h'.frequency.trans h.frequency, Nat.le_trans h.ticks h'.ticks⟩

theorem before_advance (ticks : Nat) (c : Clock) : c.Before (c.advance ticks) := by
  refine ⟨rfl, ?_⟩
  have hlt := c.ticks.toNat_lt
  rw [toNat_ticks_advance]
  simp only [timeLimit, UInt64.size]
  omega

/-- A clock that goes on shows no earlier time. -/
theorem now_mono (h : c.Before c') : c.now ≤ c'.now := by
  unfold now
  rw [h.frequency]
  split
  · exact Nat.le_refl _
  · have hticks := h.ticks
    exact Nat.div_le_div_right (by omega)

/-- The ticks for some milliseconds are enough of them, however they are rounded. -/
theorem le_now_advance_ticksFor {milliseconds : Nat} (hrate : c.frequency ≠ 0)
    (hrange : (c.advance (c.ticksFor milliseconds)).ticks.toNat * 1000 < UInt64.size) :
    c.now + milliseconds ≤ (c.advance (c.ticksFor milliseconds)).now := by
  have hpos : 0 < c.frequency.toNat := by
    refine Nat.pos_of_ne_zero fun hzero => hrate ?_
    rw [← UInt32.toNat_inj]
    exact hzero
  have hticks := toNat_ticks_advance (c.ticksFor milliseconds) c
  -- the counter has not reached its end, so the ticks were really added
  have hsum : (c.advance (c.ticksFor milliseconds)).ticks.toNat =
      c.ticks.toNat + c.ticksFor milliseconds := by
    rw [hticks] at hrange ⊢
    simp only [timeLimit, UInt64.size] at hrange ⊢
    omega
  have hfloor := Nat.div_mul_le_self (c.ticks.toNat * 1000) c.frequency.toNat
  have hceil : milliseconds * c.frequency.toNat ≤ c.ticksFor milliseconds * 1000 := by
    unfold ticksFor
    omega
  have hbefore : c.ticks.toNat * 1000 < UInt64.size := by
    rw [hsum] at hrange
    exact Nat.lt_of_le_of_lt (Nat.mul_le_mul_right _ (Nat.le_add_right _ _)) hrange
  rw [now_of_lt hbefore, now_of_lt hrange, hsum]
  refine (Nat.le_div_iff_mul_le hpos).2 ?_
  rw [Nat.add_mul, Nat.add_mul]
  exact Nat.add_le_add hfloor hceil

end Clock

namespace Scheduler

/-- A remainder of a delay is a delay. -/
theorem toNat_delayOf {milliseconds : Nat} {delay : UInt32} (h : milliseconds ≤ delay.toNat) :
    (delayOf milliseconds).toNat = milliseconds := by
  have hlt := delay.toNat_lt
  have hlimit : min milliseconds delayLimit = milliseconds := by
    simp only [delayLimit, UInt32.size]
    omega
  rw [delayOf, hlimit]
  exact UInt32.toNat_ofNat_of_lt (by rw [UInt32.size]; omega)

end Scheduler

namespace World

variable {w : World} {m : Move} {r : Request} {e : Nat}

/-! ## One move -/

/-- Only a look leaves a timer to be re-armed, for a request that it has found early. -/
theorem next_rearm {rest : Rest} {s : Scheduler} {seen : Request} {remaining : Nat}
    (h : (rest.next s).1 = some (.rearm seen remaining)) :
    s.pending = some seen ∧ s.device.now < seen.deadline ∧
      remaining = seen.deadline - s.device.now := by
  cases rest with
  | look =>
    simp only [Rest.next] at h
    rcases s.look_cases with ⟨-, heq⟩ | ⟨request, hpending, -, hearly, heq⟩ | ⟨taken, -, -, heq⟩ <;>
      rw [heq] at h <;> cases h
    exact ⟨hpending, hearly, rfl⟩
  | calls left =>
    cases left with
    | nil => cases h
    | cons c left => simp only [Rest.next] at h; split at h <;> cases h
  | _ => cases h

/-- Going on with a call arms the timer only if the call re-arms it. -/
theorem armed_next {rest : Rest} {s : Scheduler} (hr : (rest.next s).2.pending = some r)
    (he : (rest.next s).2.device.armed = some e) :
    (∃ remaining, rest = .rearm r remaining ∧
      e = s.device.expiry (Scheduler.delayOf remaining)) ∨
    (s.pending = some r ∧ s.device.armed = some e) := by
  obtain ⟨hpending, -, -⟩ := pending_next hr
  cases rest with
  | settle action delay failure =>
    right
    simp only [Rest.next, Scheduler.settle] at he
    split at he <;> exact ⟨hpending, he⟩
  | forget => exact Or.inr ⟨hpending, he⟩
  | look =>
    right
    simp only [Rest.next] at he
    rcases s.look_cases with ⟨-, heq⟩ | ⟨_, -, -, -, heq⟩ | ⟨_, -, -, heq⟩ <;> rw [heq] at he <;>
      exact ⟨hpending, he⟩
  | rearm seen remaining =>
    simp only [Rest.next] at hr he
    rcases s.rearm_cases seen remaining with ⟨-, device, harmed, heq⟩ | ⟨-, device, -, heq⟩ |
      ⟨-, heq⟩ <;> rw [heq] at hr he
    · obtain rfl : seen = r := Option.some.inj hr
      exact Or.inl ⟨remaining, rfl, Option.some.inj (he.symm.trans harmed)⟩
    · cases hr
    · exact Or.inr ⟨hr, he⟩
  | perform taken => exact Or.inr ⟨hpending, he⟩
  | calls left => cases left <;> exact Or.inr ⟨hpending, he⟩

/-- Where an armed timer comes from while a request is pending: the request armed it, or the worker
re-armed it for the request, or it was armed before. -/
theorem armed_step (hr : (w.step m).scheduler.pending = some r)
    (he : (w.step m).scheduler.device.armed = some e) :
    (∃ action delay aux, m = .request action delay aux ∧
      r = ⟨action, delay, w.scheduler.device.now, aux⟩ ∧ e = w.scheduler.device.expiry delay) ∨
    (∃ call remaining, m = .resume call ∧ w.rest call = some (.rearm r remaining) ∧
      e = w.scheduler.device.expiry (Scheduler.delayOf remaining)) ∨
    (w.scheduler.pending = some r ∧ w.scheduler.device.armed = some e) := by
  cases m with
  | request action delay aux =>
    simp only [step, leave] at hr he
    rcases w.scheduler.request_cases action delay aux with ⟨-, heq⟩ | ⟨-, -, heq⟩ |
      ⟨-, -, device, harmed, heq⟩ | ⟨-, -, error, device, -, heq⟩ <;> rw [heq] at hr he
    · cases hr
    · cases he
    · left
      exact ⟨action, delay, aux, rfl, (Option.some.inj hr).symm,
        Option.some.inj (he.symm.trans harmed)⟩
    · cases hr
  | resume call =>
    right
    cases hrest : w.rest call with
    | none =>
      simp only [step, hrest] at hr he
      exact Or.inr ⟨hr, he⟩
    | some rest =>
      simp only [step, hrest, leave] at hr he
      rcases armed_next hr he with ⟨remaining, rfl, hexpiry⟩ | hbefore
      · exact Or.inl ⟨call, remaining, rfl, hrest, hexpiry⟩
      · exact Or.inr hbefore
  | wait =>
    right; right
    simp only [step] at hr he
    split at hr <;> split at he <;> exact ⟨hr, he⟩
  | expire =>
    right; right
    by_cases harmed : w.scheduler.device.armed = none
    · simp only [step, World.onDevice, if_pos harmed] at hr he
      exact ⟨hr, he⟩
    · simp only [step, World.onDevice, if_neg harmed] at he
      cases he
  | disarm => cases he
  | _ => exact Or.inr (Or.inr ⟨hr, he⟩)

/-- Times are in order: a pending request was made in the past, a timer that is armed does not run out
before the pending request is due, nor will one that is still to be re-armed, whenever that is. -/
structure Punctual (w : World) : Prop where
  made : ∀ r, w.scheduler.pending = some r → r.start ≤ w.scheduler.device.now
  armed : ∀ r e, w.scheduler.pending = some r → w.scheduler.device.armed = some e → r.deadline ≤ e
  rearming : ∀ call seen remaining, w.rest call = some (.rearm seen remaining) →
    seen.deadline ≤ w.scheduler.device.now + remaining ∧ remaining ≤ seen.delay.toNat

/-- **Every move keeps times in order**, if the clock does not go back. -/
theorem punctual_step (hclock : w.scheduler.device.clock.Before (w.step m).scheduler.device.clock)
    (h : w.Punctual) : (w.step m).Punctual := by
  have hnow : w.scheduler.device.now ≤ (w.step m).scheduler.device.now := Clock.now_mono hclock
  refine ⟨fun r hr => ?_, fun r e hr he => ?_, fun call seen remaining hrest => ?_⟩
  · rcases pending_step hr with ⟨action, delay, aux, -, -, -, rfl⟩ | ⟨hpending, -, -⟩
    · exact hnow
    · exact Nat.le_trans (h.made r hpending) hnow
  · have hlimit : r.deadline ≤ timeLimit := Nat.le_pred_of_lt r.deadline_lt
    rcases armed_step hr he with ⟨action, delay, aux, -, rfl, rfl⟩ |
      ⟨call, remaining, -, hrest, rfl⟩ | ⟨hpending, harmed⟩
    · exact Nat.le_min.2 ⟨Request.deadline_le_lapse _, hlimit⟩
    · obtain ⟨hdeadline, hremaining⟩ := h.rearming call r remaining hrest
      refine Nat.le_min.2 ⟨?_, hlimit⟩
      rwa [Scheduler.toNat_delayOf hremaining]
    · exact h.armed r e hpending harmed
  · rcases rest_step_cases hrest with hbefore | ⟨-, hbegun⟩ | ⟨old, -, -, hnext⟩
    · obtain ⟨hdeadline, hremaining⟩ := h.rearming call seen remaining hbefore
      exact ⟨by omega, hremaining⟩
    · rcases hbegun with ⟨_, _, _, -, hsettle⟩ | ⟨-, hforget⟩ | hlook
      · cases hsettle
      · cases hforget
      · cases hlook
    · obtain ⟨hpending, hearly, rfl⟩ := next_rearm hnext
      have hmade := h.made seen hpending
      exact ⟨by omega, Request.deadline_sub_le hmade⟩

end World

/-! ## Runs -/

namespace Run

variable {run : Run} {i n : Nat}

variable (run) in
/-- From one move to another the clock goes on, at one rate and never backwards. -/
def Steady (i n : Nat) : Prop :=
  ∀ m, i ≤ m → m < n → (run.scheduler m).device.clock.Before (run.scheduler (m + 1)).device.clock

theorem Steady.before (h : run.Steady i n) (hin : i ≤ n) :
    (run.scheduler i).device.clock.Before (run.scheduler n).device.clock := by
  induction hin with
  | refl => exact Clock.Before.refl _
  | @step n hin ih =>
    have hlast := h n hin (Nat.lt_succ_self n)
    exact (ih fun m him hmn => h m him (Nat.lt_succ_of_lt hmn)).trans hlast

theorem Steady.mono {i' n' : Nat} (h : run.Steady i n) (hi : i ≤ i') (hn : n' ≤ n) :
    run.Steady i' n' := fun m him hmn => h m (Nat.le_trans hi him) (Nat.lt_of_lt_of_le hmn hn)

/-- In a run whose clock does not go back times are in order. -/
theorem punctual_world (hclock : run.Steady 0 n) : (run.world n).Punctual := by
  induction n with
  | zero =>
    exact ⟨fun _ hr => (nomatch hr), fun _ _ hr => (nomatch hr), fun _ _ _ hrest => (nomatch hrest)⟩
  | succ n ih =>
    exact World.punctual_step (hclock n (Nat.zero_le n) (Nat.lt_succ_self n))
      (ih (hclock.mono (Nat.le_refl 0) (Nat.le_succ n)))

end Run

end Firmware.Schedule
