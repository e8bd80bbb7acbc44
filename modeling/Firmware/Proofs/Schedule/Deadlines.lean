import Mathlib.Algebra.Ring.Nat
import Firmware.Proofs.Schedule.Rearming

/-!
# Times as 64-bit words

The clock is read in words that stop at the largest one, and deadlines are sums of words that do not.
So the time keeps one value at the end, and a deadline can run over, to a time before the delay has
passed; but the clock shows more than half of what a word holds only at a rate of one tick in a second.

* `toNat_nowWord`: the time computed in words is the time.
* `now_of_le`: the value that the time keeps at the end.
* `toNat_deadlineWord`: the deadline is the sum of words.
* `overflows_iff`: the sum of words is the end of the delay unless that takes more than a word.
* `lapse_asked_lt`, `overflows_asked_iff`: when the deadline of a new request runs over.
* `look_eq_early_iff_words`: a look computed in words.
* `times_in_words`: clock, deadlines, and what is left of a delay.
-/

namespace Firmware.Schedule

/-- The product of two words, or the largest word where that is less. -/
def saturatingMul (a b : UInt64) : UInt64 :=
  if a.toNat * b.toNat < UInt64.size then a * b else UInt64.ofNat timeLimit

theorem toNat_saturatingMul (a b : UInt64) :
    (saturatingMul a b).toNat = min (a.toNat * b.toNat) timeLimit := by
  unfold saturatingMul
  split
  next hlt =>
    have hle : a.toNat * b.toNat ≤ timeLimit := Nat.le_pred_of_lt hlt
    rw [UInt64.toNat_mul, Nat.min_eq_left hle]
    exact Nat.mod_eq_of_lt hlt
  next hge =>
    have hlimit : timeLimit < UInt64.size := by decide
    have hle : timeLimit ≤ a.toNat * b.toNat := by omega
    rw [UInt64.toNat_ofNat_of_lt' hlimit, Nat.min_eq_right hle]

namespace Clock

/-- The time as it is computed, in words. -/
def nowWord (clock : Clock) : UInt64 :=
  if clock.frequency = 0 then 0
  else saturatingMul clock.ticks 1000 / clock.frequency.toUInt64

variable {c : Clock}

theorem toNat_nowWord (c : Clock) : c.nowWord.toNat = c.now := by
  unfold nowWord now
  split
  · rfl
  · rw [UInt64.toNat_div, toNat_saturatingMul, UInt32.toNat_toUInt64]
    rfl

/-- The time once the product of the ticks with 1000 does not fit a word any more. -/
theorem now_of_le (hrate : c.frequency ≠ 0) (h : UInt64.size ≤ c.ticks.toNat * 1000) :
    c.now = timeLimit / c.frequency.toNat := by
  have hle : timeLimit ≤ c.ticks.toNat * 1000 := Nat.le_trans (Nat.sub_le _ _) h
  rw [now, if_neg hrate, Nat.min_eq_right hle]

theorem now_of_frequency_one (h : c.frequency = 1) :
    c.now = min (c.ticks.toNat * 1000) timeLimit := by
  have hne : c.frequency ≠ 0 := by
    rw [h]
    decide
  rw [now, if_neg hne, h]
  exact Nat.div_one _

/-- At any rate but one tick in a second, half of what a word holds is enough for the time. -/
theorem now_le_half (h : c.frequency ≠ 1) : c.now ≤ timeLimit / 2 := by
  unfold now
  split
  · exact Nat.zero_le _
  next hzero =>
    have hrate : 2 ≤ c.frequency.toNat := by
      have hne0 : c.frequency.toNat ≠ 0 := fun h0 => hzero (UInt32.toNat_inj.1 h0)
      have hne1 : c.frequency.toNat ≠ 1 := fun h1 => h (UInt32.toNat_inj.1 h1)
      omega
    calc min (c.ticks.toNat * 1000) timeLimit / c.frequency.toNat
        ≤ timeLimit / c.frequency.toNat := Nat.div_le_div_right (Nat.min_le_right _ _)
      _ ≤ timeLimit / 2 := Nat.div_le_div_left hrate (by decide)

end Clock

namespace Request

/-- The deadline as it is computed, as a sum of words. -/
def deadlineWord (request : Request) : UInt64 :=
  UInt64.ofNat request.start + request.delay.toUInt64

/-- The sum of words is not the time at which the delay has passed. -/
def Overflows (request : Request) : Prop := request.deadlineWord.toNat ≠ request.lapse

variable {r : Request}

theorem toNat_deadlineWord (r : Request) : r.deadlineWord.toNat = r.deadline := by
  unfold deadlineWord deadline lapse
  rw [UInt64.toNat_add, UInt64.toNat_ofNat', UInt32.toNat_toUInt64]
  exact Nat.mod_add_mod _ _ _

/-- **The sum of words is the end of the delay unless that takes more than a word.** -/
theorem overflows_iff : r.Overflows ↔ UInt64.size ≤ r.lapse := by
  unfold Overflows
  rw [toNat_deadlineWord]
  constructor
  · intro hne
    by_contra hlt
    exact hne (deadline_of_lt (Nat.lt_of_not_le hlt))
  · intro hle heq
    have hlt := r.deadline_lt
    omega

end Request

namespace Scheduler

/-- The request that a call makes now, whether or not the timer can then be armed for it. -/
def asked (action : Action) (delay : UInt32) (aux : UInt8) (scheduler : Scheduler) : Request :=
  ⟨action, delay, scheduler.device.now, aux⟩

variable {s : Scheduler} {action : Action} {delay : UInt32} {aux : UInt8} {r : Request}

theorem eq_asked_of_pending (h : (s.request action delay aux).2.pending = some r) :
    r = s.asked action delay aux := by
  unfold asked
  rcases s.request_cases action delay aux with ⟨-, heq⟩ | ⟨-, -, heq⟩ | ⟨-, -, device, -, heq⟩ |
    ⟨-, -, error, device, -, heq⟩ <;> rw [heq] at h
  · cases h
  · exact (Option.some.inj h).symm
  · exact (Option.some.inj h).symm
  · cases h

theorem deadlineWord_asked : (s.asked action delay aux).deadlineWord =
    s.device.clock.nowWord + delay.toUInt64 := by
  have hnow : UInt64.ofNat s.device.now = s.device.clock.nowWord := by
    rw [Device.now, ← Clock.toNat_nowWord, UInt64.ofNat_toNat]
  unfold Request.deadlineWord asked
  rw [hnow]

/-- At any rate but one tick in a second, no deadline runs over. -/
theorem lapse_asked_lt (hrate : s.device.clock.frequency ≠ 1) :
    (s.asked action delay aux).lapse < UInt64.size := by
  have hnow := Clock.now_le_half hrate
  have hdelay := delay.toNat_lt
  unfold Request.lapse asked Device.now
  simp only [timeLimit, UInt64.size] at hnow ⊢
  omega

theorem overflows_asked_iff (hrate : s.device.clock.frequency = 1) :
    (s.asked action delay aux).Overflows ↔
      UInt64.size ≤ min (s.device.clock.ticks.toNat * 1000) timeLimit + delay.toNat := by
  rw [Request.overflows_iff, ← Clock.now_of_frequency_one hrate]
  rfl

theorem nowWord_lt_iff :
    s.device.clock.nowWord < r.deadlineWord ↔ s.device.now < r.deadline := by
  rw [UInt64.lt_iff_toNat_lt, r.toNat_deadlineWord, Clock.toNat_nowWord]
  rfl

theorem toNat_deadlineWord_sub (hearly : s.device.now < r.deadline) :
    (r.deadlineWord - s.device.clock.nowWord).toNat = r.deadline - s.device.now := by
  have hle := UInt64.le_of_lt (nowWord_lt_iff.2 hearly)
  rw [UInt64.toNat_sub_of_le _ _ hle, r.toNat_deadlineWord, Clock.toNat_nowWord]
  rfl

/-- **A look computed in words** comes to the same. -/
theorem look_eq_early_iff_words {remaining : Nat} :
    s.look.1 = .early r remaining ↔ s.pending = some r ∧ r.delay ≠ 0 ∧
      s.device.clock.nowWord < r.deadlineWord ∧
      remaining = (r.deadlineWord - s.device.clock.nowWord).toNat := by
  rw [look_eq_early_iff, nowWord_lt_iff]
  constructor
  · rintro ⟨hpending, hdelay, hearly, hremaining⟩
    rw [← toNat_deadlineWord_sub hearly] at hremaining
    exact ⟨hpending, hdelay, hearly, hremaining⟩
  · rintro ⟨hpending, hdelay, hearly, hremaining⟩
    rw [toNat_deadlineWord_sub hearly] at hremaining
    exact ⟨hpending, hdelay, hearly, hremaining⟩

end Scheduler

namespace Run

variable {run : Run} {l remaining : Nat} {seen : Request}

variable (run) in
/-- What a look in move `l` finds left of a request's delay is a part of it, and the timer is started for
exactly that when it is re-armed. -/
structure Leaves (l : Nat) (seen : Request) (remaining : Nat) : Prop where
  pos : 1 ≤ remaining
  le_delay : remaining ≤ seen.delay.toNat
  words : remaining = (seen.deadlineWord - (run.scheduler l).device.clock.nowWord).toNat
  started : ∀ n call, run.Rearms l n call seen remaining → (run.scheduler n).pending = some seen →
    ∃ delay : UInt32, delay.toNat = remaining ∧
      (run.scheduler (n + 1)).device = ((run.scheduler n).device.start delay).2

/-- The request that a look finds early was made by the last call that decided what is pending, and if
the clock has only gone on since then, no more is left than the delay that was asked for. -/
theorem exists_requests_of_early (hearly : (run.scheduler l).look.1 = .early seen remaining) :
    ∃ i < l, run.Requests i seen ∧ (∀ j, i < j → j < l → ¬ run.Decides j) ∧
      (run.Steady i l → run.Leaves l seen remaining) := by
  obtain ⟨hpending, -, hlt, hleft⟩ := Scheduler.look_eq_early_iff.1 hearly
  have hwords := (Scheduler.look_eq_early_iff_words.1 hearly).2.2.2
  obtain ⟨i, hil, hrequests, hsince⟩ := origin_of_pending hpending
  refine ⟨i, hil, hrequests, fun j hij hjl => (hsince j hij hjl).1, fun hclock => ?_⟩
  have hmade := hrequests.made (Nat.le_of_lt hil) hclock
  have hle : remaining ≤ seen.delay.toNat := by
    rw [hleft]
    exact Request.deadline_sub_le hmade
  refine ⟨by omega, hle, hwords, fun n call hrearms hstill => ?_⟩
  refine ⟨Scheduler.delayOf remaining, Scheduler.toNat_delayOf hle, ?_⟩
  rw [hrearms.scheduler, Scheduler.device_rearm_of_pending hstill]

/-- **The clock and the deadlines in words.** The clock shows no earlier time after more ticks, whole
milliseconds while the product of the ticks with 1000 fits a word, and the same from then on. The
deadline of a new request is a sum of words, which does not run over at any rate but one tick in a second,
and at that rate it runs over exactly if the time and the delay add up to more than a word. What a look
finds left of a delay is a part of it, if the clock has only gone on, and goes to the timer as it is. -/
theorem times_in_words :
    (∀ c c' : Clock, c.Before c' → c.now ≤ c'.now) ∧
    (∀ c : Clock, c.nowWord.toNat = c.now ∧ (c.frequency ≠ 0 →
      (c.ticks.toNat * 1000 < UInt64.size →
        c.now = c.ticks.toNat * 1000 / c.frequency.toNat) ∧
      (UInt64.size ≤ c.ticks.toNat * 1000 → c.now = timeLimit / c.frequency.toNat))) ∧
    (∀ (s : Scheduler) (action : Action) (delay : UInt32) (aux : UInt8),
      (∀ r, (s.request action delay aux).2.pending = some r → r = s.asked action delay aux) ∧
      (s.asked action delay aux).deadlineWord = s.device.clock.nowWord + delay.toUInt64 ∧
      (s.asked action delay aux).deadlineWord.toNat = (s.asked action delay aux).deadline ∧
      (s.device.clock.frequency ≠ 1 → (s.asked action delay aux).lapse < UInt64.size ∧
        ¬ (s.asked action delay aux).Overflows) ∧
      (s.device.clock.frequency = 1 → ((s.asked action delay aux).Overflows ↔
        UInt64.size ≤ min (s.device.clock.ticks.toNat * 1000) timeLimit + delay.toNat))) ∧
    (∀ (run : Run) (l : Nat) (seen : Request) (remaining : Nat),
      (run.scheduler l).look.1 = .early seen remaining →
        ∃ i < l, run.Requests i seen ∧ (∀ j, i < j → j < l → ¬ run.Decides j) ∧
          (run.Steady i l → run.Leaves l seen remaining)) := by
  refine ⟨fun _ _ => Clock.now_mono, fun c => ⟨c.toNat_nowWord, fun hrate => ?_⟩,
    fun s action delay aux => ?_, fun run l seen remaining => exists_requests_of_early⟩
  · exact ⟨Clock.now_of_lt, Clock.now_of_le hrate⟩
  · refine ⟨fun r => Scheduler.eq_asked_of_pending, Scheduler.deadlineWord_asked,
      Request.toNat_deadlineWord _, fun hrate => ?_, Scheduler.overflows_asked_iff⟩
    have hlt : (s.asked action delay aux).lapse < UInt64.size :=
      Scheduler.lapse_asked_lt hrate
    exact ⟨hlt, fun hover => Nat.not_le_of_lt hlt (Request.overflows_iff.1 hover)⟩

/-- At a rate of one tick in a second, next to the end of what a word holds, a request is found early
after a tick. -/
def edge : Run where
  device := Device.atRest ⟨18446744073709550, 1⟩
  move n := [.request .reconnect 1600 0, .resume 0, .setClock ⟨18446744073709551, 1⟩, .execute,
    .resume 3, .resume 3].getD n .wake

/-- A delay of 1600 milliseconds is just short enough there, and one of 1616 is not. After the tick the
timer is started for what is left. -/
theorem times_at_edge :
    ¬ (Scheduler.asked .reconnect 1600 0 (edge.scheduler 0)).Overflows ∧
    (Scheduler.asked .reconnect 1616 0 (edge.scheduler 0)).Overflows ∧
    edge.Steady 0 4 ∧ edge.Leaves 4 ⟨.reconnect, 1600, 18446744073709550000, 0⟩ 600 ∧
    ∃ delay : UInt32, delay.toNat = 600 ∧
      (edge.scheduler 6).device = ((edge.scheduler 5).device.start delay).2 := by
  obtain ⟨-, -, hasked, hearly⟩ := times_in_words
  have hfits : ¬ (Scheduler.asked .reconnect 1600 0 (edge.scheduler 0)).Overflows :=
    fun hover => absurd (((hasked _ _ _ _).2.2.2.2 rfl).1 hover) (by decide)
  have hover : (Scheduler.asked .reconnect 1616 0 (edge.scheduler 0)).Overflows :=
    ((hasked _ _ _ _).2.2.2.2 rfl).2 (by decide)
  have hclock : edge.Steady 0 4 := by
    intro m _ hm
    obtain rfl | rfl | rfl | rfl : m = 0 ∨ m = 1 ∨ m = 2 ∨ m = 3 := by omega
    all_goals exact ⟨rfl, by decide⟩
  obtain ⟨i, hi, -, -, hsince⟩ := hearly edge 4 _ 600 rfl
  have hleaves := hsince (hclock.mono (Nat.zero_le i) (Nat.le_refl 4))
  have hrearms : edge.Rearms 4 5 3 ⟨.reconnect, 1600, 18446744073709550000, 0⟩ 600 :=
    ⟨by decide, ⟨rfl, rfl⟩, rfl, rfl, rfl⟩
  exact ⟨hfits, hover, hclock, hleaves, hleaves.started 5 3 hrearms rfl⟩

end Run

end Firmware.Schedule
