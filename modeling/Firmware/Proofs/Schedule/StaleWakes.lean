import Firmware.Proofs.Schedule.Wakes

/-!
# Stale wakes go unseen

A scheduler that is driven one step at a time, on a platform that refuses no start, whose clock goes
forward and whose timer expires as soon as the clock has reached it. After each step the worker handles
the wakes that are outstanding. Such a scheduler does what an `Agenda` does, which knows neither a timer
nor wakes: it holds at most one request and performs it as soon as the clock has reached its deadline.

* `drained_notes`: what is performed in a drain is what is called.
* `take_reaches`: one turn on a scheduler at peace is one turn of its agenda.
* `performed_eq`, `sights_eq`: so it is for any number of turns.
* `stale_wakes_unseen`: wakes that nothing asked for change nothing that can be seen.
-/

namespace Firmware.Schedule

/-- One turn of driving a scheduler; after it the worker handles the wakes that are outstanding. -/
inductive Turn where
  | schedule (action : Action) (delay : UInt32) (aux : UInt8)
  /-- Ticks pass, and the timer expires if it is due then. -/
  | advance (ticks : Nat)
  /-- The timer is said to have expired, which it has not. -/
  | expire
  /-- The worker looks at the pending request though nothing has woken it. -/
  | execute

/-- What a turn is about is only a wake that nothing asked for. -/
def Turn.stale : Turn → Bool
  | schedule .. | advance _ => false
  | expire | execute => true

/-- The clock after a turn. -/
def Turn.pass (clock : Clock) : Turn → Clock
  | advance ticks => clock.advance ticks
  | _ => clock

/-- The deadline of what is asked for fits 64 bits. -/
def Turn.Fits (clock : Clock) : Turn → Prop
  | schedule action delay _ => action ≠ .nothing → clock.now + delay.toNat < UInt64.size
  | _ => True

/-- All deadlines fit 64 bits, of what is asked for in one turn after another. -/
def FitAll : Clock → List Turn → Prop
  | _, [] => True
  | clock, turn :: turns => turn.Fits clock ∧ FitAll (turn.pass clock) turns

/-- What can be seen of a scheduler after a turn. -/
structure Sight where
  pending : Option Request
  armed : Option Nat
  remaining : Remaining
deriving DecidableEq

namespace Bench

variable (nest : List Step → Bench → Bench)

/-- What is performed while the worker handles the wakes that are outstanding. -/
def drained : Nat → Bench → List Performance
  | 0, _ => []
  | limit + 1, bench =>
    if bench.device.notified then
      let woken := bench.onDevice Device.acknowledge
      woken.executed ++ drained limit (execute nest [] woken).2
    else []

variable {nest} in
/-- The calls that a drain notes are those of what is performed in it. -/
theorem drained_notes (hnest : ∀ bench, nest [] bench = bench) (limit : Nat) (bench : Bench)
    (hhooks : bench.hooks = []) : ∃ starts, Notes bench (drain nest limit bench).2
      ((drained nest limit bench).flatMap Performance.calls) starts := by
  induction limit generalizing bench with
  | zero => exact ⟨0, Notes.refl bench⟩
  | succ limit ih =>
    simp only [drained, drain]
    split
    next =>
      obtain ⟨starts, hnotes⟩ := execute_notes hnest (bench.onDevice Device.acknowledge) hhooks
      have hdone := (execute_frame hnest (bench.onDevice Device.acknowledge) hhooks).2
      obtain ⟨starts', hnotes'⟩ := ih _ hdone
      rw [List.flatMap_append]
      exact ⟨starts + starts', hnotes.trans hnotes'⟩
    next => exact ⟨0, Notes.refl bench⟩

/-- The worker handles the wakes that are outstanding. -/
def settled (limit : Nat) (bench : Bench) : List Performance × Bench :=
  (drained nest limit bench, (drain nest limit bench).2)

/-- Takes one turn, and gives what is performed in it. -/
def take (limit : Nat) (bench : Bench) : Turn → List Performance × Bench
  | .schedule action delay aux => settled nest limit (bench.schedule nest action delay aux []).2
  | .advance ticks => settled nest limit (bench.advance ticks).2
  | .expire => settled nest limit (bench.onScheduler Scheduler.timerExpired)
  | .execute => (bench.executed, (execute nest [] bench).2)

/-- What is performed in one turn after another. -/
def performed (limit : Nat) : List Turn → Bench → List Performance
  | [], _ => []
  | turn :: turns, bench =>
    (take nest limit bench turn).1 ++ performed limit turns (take nest limit bench turn).2

/-- What can be seen of the scheduler. -/
def sight (bench : Bench) : Sight :=
  ⟨bench.scheduler.pending, bench.device.armed, bench.scheduler.remaining⟩

/-- What can be seen after each turn that is not stale. -/
def sights (limit : Nat) : List Turn → Bench → List Sight
  | [], _ => []
  | turn :: turns, bench =>
    let next := (take nest limit bench turn).2
    if turn.stale then sights limit turns next else next.sight :: sights limit turns next

end Bench

/-! ## What the scheduler amounts to -/

/-- A request to be performed when the clock reaches its deadline, if there is one. -/
structure Agenda where
  pending : Option Request
  clock : Clock

namespace Agenda

/-- One turn of an agenda. Wakes mean nothing to it. -/
def take (agenda : Agenda) : Turn → List Performance × Agenda
  | .schedule action delay aux =>
    if action = .nothing then ([], ⟨none, agenda.clock⟩)
    else if delay = 0 then ([⟨action, aux, agenda.clock⟩], ⟨none, agenda.clock⟩)
    else ([], ⟨some ⟨action, delay, agenda.clock.now, aux⟩, agenda.clock⟩)
  | .advance ticks =>
    let later := agenda.clock.advance ticks
    match agenda.pending with
    | some r =>
      if r.deadline ≤ later.now then ([⟨r.action, r.aux, later⟩], ⟨none, later⟩)
      else ([], ⟨some r, later⟩)
    | none => ([], ⟨none, later⟩)
  | .expire => ([], agenda)
  | .execute => ([], agenda)

/-- What an agenda performs in one turn after another. -/
def performed : List Turn → Agenda → List Performance
  | [], _ => []
  | turn :: turns, agenda => (agenda.take turn).1 ++ performed turns (agenda.take turn).2

/-- What the scheduler of an agenda shows. -/
def sight (agenda : Agenda) : Sight :=
  ⟨agenda.pending, agenda.pending.map Request.deadline, agenda.pending.map fun r =>
    (min (r.deadline - agenda.clock.now) Scheduler.delayLimit, r.action)⟩

/-- What is to be seen after each turn that is not stale. -/
def sights : List Turn → Agenda → List Sight
  | [], _ => []
  | turn :: turns, agenda =>
    let next := (agenda.take turn).2
    if turn.stale then sights turns next else next.sight :: sights turns next

variable {turn : Turn}

theorem clock_take (agenda : Agenda) (turn : Turn) :
    (agenda.take turn).2.clock = turn.pass agenda.clock := by
  cases turn with
  | schedule action delay aux =>
    simp only [take]
    split
    · rfl
    · split <;> rfl
  | advance ticks =>
    simp only [take]
    split
    · split <;> rfl
    · rfl
  | expire => rfl
  | execute => rfl

theorem take_advance_of_due {ticks : Nat} {r : Request} (agenda : Agenda)
    (hpending : agenda.pending = some r) (hdue : r.deadline ≤ (agenda.clock.advance ticks).now) :
    agenda.take (.advance ticks) =
      ([⟨r.action, r.aux, agenda.clock.advance ticks⟩], ⟨none, agenda.clock.advance ticks⟩) := by
  simp only [take, hpending, if_pos hdue]

theorem take_advance_of_early {ticks : Nat} (agenda : Agenda)
    (hearly : ∀ r, agenda.pending = some r → (agenda.clock.advance ticks).now < r.deadline) :
    agenda.take (.advance ticks) = ([], ⟨agenda.pending, agenda.clock.advance ticks⟩) := by
  cases hpending : agenda.pending with
  | none => simp only [take, hpending]
  | some r => simp only [take, hpending, if_neg (Nat.not_le_of_lt (hearly r hpending))]

/-- A stale wake means nothing to an agenda. -/
theorem take_of_stale (agenda : Agenda) (h : turn.stale = true) :
    agenda.take turn = ([], agenda) := by
  cases turn with
  | schedule | advance => cases h
  | expire | execute => rfl

theorem performed_filter (turns : List Turn) (agenda : Agenda) :
    performed (turns.filter fun turn => !turn.stale) agenda = performed turns agenda := by
  induction turns generalizing agenda with
  | nil => rfl
  | cons turn turns ih =>
    cases hstale : turn.stale with
    | true =>
      rw [List.filter_cons_of_neg (by simp [hstale]), ih, performed, take_of_stale agenda hstale]
      rfl
    | false =>
      rw [List.filter_cons_of_pos (by simp [hstale]), performed, performed, ih]

theorem sights_filter (turns : List Turn) (agenda : Agenda) :
    sights (turns.filter fun turn => !turn.stale) agenda = sights turns agenda := by
  induction turns generalizing agenda with
  | nil => rfl
  | cons turn turns ih =>
    cases hstale : turn.stale with
    | true =>
      rw [List.filter_cons_of_neg (by simp [hstale]), ih, sights, take_of_stale agenda hstale]
      simp only [hstale, if_true]
    | false =>
      rw [List.filter_cons_of_pos (by simp [hstale]), sights, sights]
      simp only [hstale, Bool.false_eq_true, if_false, ih]

end Agenda

theorem FitAll.filter {clock : Clock} {turns : List Turn} (h : FitAll clock turns) :
    FitAll clock (turns.filter fun turn => !turn.stale) := by
  induction turns generalizing clock with
  | nil => trivial
  | cons turn turns ih =>
    obtain ⟨hfits, hrest⟩ := h
    cases hstale : turn.stale with
    | true =>
      have hpass : turn.pass clock = clock := by
        cases turn with
        | schedule | advance => cases hstale
        | expire | execute => rfl
      rw [List.filter_cons_of_neg (by simp [hstale]), ← hpass]
      exact ih hrest
    | false =>
      rw [List.filter_cons_of_pos (by simp [hstale])]
      exact ⟨hfits, ih hrest⟩

/-! ## A scheduler at peace -/

namespace Bench

/-- A scheduler at peace, on a platform that refuses no start: the timer is armed for just the time at
which the pending request is due, which is still to come. -/
structure Calm (bench : Bench) : Prop where
  hooks : bench.hooks = []
  willing : bench.device.Willing
  armed : bench.device.armed = bench.scheduler.pending.map Request.deadline
  made : ∀ r, bench.scheduler.pending = some r → r.start ≤ bench.device.now
  early : ∀ r, bench.scheduler.pending = some r → bench.device.now < r.deadline

/-- The agenda of a scheduler. -/
def agenda (bench : Bench) : Agenda := ⟨bench.scheduler.pending, bench.device.clock⟩

/-- What a turn came to on a scheduler is what it came to on an agenda, and the scheduler is at
peace. -/
structure Reaches (performed : List Performance) (done : Bench)
    (expected : List Performance × Agenda) : Prop where
  performed : performed = expected.1
  calm : done.Calm
  agenda : done.agenda = expected.2

variable {nest : List Step → Bench → Bench} {bench : Bench} {r : Request} {limit : Nat}

theorem calm_start (clock : Clock) : (start clock).Calm :=
  ⟨rfl, fun _ h => (nomatch h), rfl, fun _ h => (nomatch h), fun _ h => (nomatch h)⟩

theorem Calm.delay_ne_zero (h : bench.Calm) (hpending : bench.scheduler.pending = some r) :
    r.delay ≠ 0 := by
  intro hzero
  have hmade := h.made r hpending
  have hdue := Nat.le_trans (Request.deadline_le_start hzero) hmade
  exact absurd (h.early r hpending) (Nat.not_lt_of_le hdue)

/-- With nothing pending and the timer disarmed there is peace. -/
theorem calm_of_pending_none (hhooks : bench.hooks = []) (hwilling : bench.device.Willing)
    (hpending : bench.scheduler.pending = none) (harmed : bench.device.armed = none) :
    bench.Calm := by
  refine ⟨hhooks, hwilling, by rw [harmed, hpending]; rfl, ?_, ?_⟩ <;>
    rw [hpending] <;> exact fun _ h => (nomatch h)

/-- Whether a wake is outstanding has nothing to do with peace. -/
theorem Calm.acknowledge (h : bench.Calm) : (bench.onDevice Device.acknowledge).Calm :=
  ⟨h.hooks, h.willing, h.armed, h.made, h.early⟩

theorem Calm.timerExpired (h : bench.Calm) : (bench.onScheduler Scheduler.timerExpired).Calm :=
  ⟨h.hooks, h.willing, h.armed, h.made, h.early⟩

/-- A scheduler at peace shows what its agenda says. -/
theorem Calm.sight_eq (h : bench.Calm) : bench.sight = bench.agenda.sight := by
  simp only [sight, Agenda.sight, h.armed]
  rfl

section

variable (hnest : ∀ bench, nest [] bench = bench)

include hnest

/-- A look at a scheduler at peace finds nothing to perform and leaves it as it was. -/
theorem execute_reaches (h : bench.Calm) :
    Reaches bench.executed (execute nest [] bench).2 ([], bench.agenda) := by
  cases hpending : bench.scheduler.pending with
  | none =>
    obtain ⟨hexecuted, heq⟩ := execute_of_pending_none hnest bench h.hooks hpending
    rw [heq]
    exact ⟨hexecuted, h, rfl⟩
  | some r =>
    obtain ⟨hexecuted, heq⟩ := execute_of_early hnest bench h.hooks h.willing hpending
      (h.delay_ne_zero hpending) (h.made r hpending) (h.early r hpending)
    rw [heq]
    refine ⟨hexecuted, ⟨h.hooks, h.willing.tail rfl, ?_, h.made, h.early⟩, rfl⟩
    -- the timer is armed anew, for the very time for which it was armed
    exact (congrArg (Option.map Request.deadline) hpending).symm

/-- A worker that is woken at peace performs nothing and leaves the scheduler as it was. -/
theorem settled_reaches (limit : Nat) (bench : Bench) (h : bench.Calm) :
    Reaches (drained nest limit bench) (drain nest limit bench).2 ([], bench.agenda) := by
  induction limit generalizing bench with
  | zero => exact ⟨rfl, h, rfl⟩
  | succ limit ih =>
    simp only [drained, drain]
    split
    next =>
      obtain ⟨hexecuted, hcalm, hagenda⟩ := execute_reaches hnest h.acknowledge
      obtain ⟨hperformed, hcalm', hagenda'⟩ := ih _ hcalm
      refine ⟨?_, hcalm', hagenda'.trans hagenda⟩
      rw [hexecuted, hperformed]
      rfl
    next => exact ⟨rfl, h, rfl⟩

/-- A worker that is woken when the pending request is due performs it. -/
theorem settled_of_due (bench : Bench) (hhooks : bench.hooks = []) (hwilling : bench.device.Willing)
    (hnotified : bench.device.notified = true) (harmed : bench.device.armed = none)
    (hpending : bench.scheduler.pending = some r)
    (hdue : r.delay = 0 ∨ r.deadline ≤ bench.device.now) (hlimit : 0 < limit) :
    Reaches (drained nest limit bench) (drain nest limit bench).2
      ([⟨r.action, r.aux, bench.device.clock⟩], ⟨none, bench.device.clock⟩) := by
  obtain ⟨limit, rfl⟩ := Nat.exists_eq_succ_of_ne_zero (Nat.ne_of_gt hlimit)
  obtain ⟨hexecuted, heq⟩ := execute_of_due hnest (bench.onDevice Device.acknowledge) hhooks
    hpending hdue
  have hcalm : ((bench.onDevice Device.acknowledge).served r).Calm :=
    calm_of_pending_none hhooks hwilling rfl harmed
  obtain ⟨hperformed, hcalm', hagenda⟩ := settled_reaches hnest limit _ hcalm
  simp only [drained, drain, hnotified, if_true, heq, hexecuted]
  rw [hperformed]
  exact ⟨rfl, hcalm', hagenda⟩

/-! ## Turns -/

/-- A request and what follows on it: it is performed at once if it has no delay, and else it is
pending from now on. -/
theorem schedule_reaches (action : Action) (delay : UInt32) (aux : UInt8) (h : bench.Calm)
    (hfits : action ≠ .nothing → bench.device.now + delay.toNat < UInt64.size) (hlimit : 0 < limit) :
    Reaches (take nest limit bench (.schedule action delay aux)).1
      (take nest limit bench (.schedule action delay aux)).2
      (bench.agenda.take (.schedule action delay aux)) := by
  have hschedule : (bench.schedule nest action delay aux []).2 = bench.onScheduler fun s =>
      (s.request action delay aux).2.settle action delay (s.request action delay aux).1 := by
    simp only [schedule, hnest]
    rfl
  by_cases haction : action = .nothing
  · have heq : (bench.schedule nest action delay aux []).2 =
        bench.onScheduler fun s => ⟨none, s.device.stop⟩ := by
      rw [hschedule, haction]
      rfl
    simp only [take, settled, Agenda.take, heq, if_pos haction]
    exact settled_reaches hnest limit _ (calm_of_pending_none h.hooks h.willing rfl rfl)
  by_cases hdelay : delay = 0
  · have heq : (bench.schedule nest action delay aux []).2 = bench.onScheduler fun s =>
        ⟨some ⟨action, delay, s.device.now, aux⟩, s.device.stop.notify⟩ := by
      rw [hschedule]
      simp only [Scheduler.request, Scheduler.settle, haction, hdelay, if_true, if_false, ne_eq,
        not_false_eq_true, and_self]
      rfl
    simp only [take, settled, Agenda.take, heq, if_neg haction, if_pos hdelay]
    exact settled_of_due hnest (bench.onScheduler fun s =>
      ⟨some ⟨action, delay, s.device.now, aux⟩, s.device.stop.notify⟩) h.hooks h.willing rfl rfl rfl
      (Or.inl hdelay) hlimit
  · have hwilling : bench.scheduler.device.stop.Willing := h.willing
    have hstart := Device.start_of_willing hwilling delay
    have heq : (bench.schedule nest action delay aux []).2 = bench.onScheduler fun s =>
        ⟨some ⟨action, delay, s.device.now, aux⟩, { s.device.stop with
          outcomes := s.device.outcomes.tail
          armed := some (s.device.expiry delay) }.record (.start delay)⟩ := by
      rw [hschedule]
      simp only [onScheduler, Scheduler.request, Scheduler.settle, haction, hdelay, if_false,
        hstart, ne_eq, and_false]
      rfl
    simp only [take, settled, Agenda.take, heq, if_neg haction, if_neg hdelay]
    have hfits' := hfits haction
    have hdeadline : Request.deadline ⟨action, delay, bench.device.now, aux⟩ =
        bench.device.now + delay.toNat := Request.deadline_of_lt hfits'
    have hexpiry : bench.device.expiry delay =
        Request.deadline ⟨action, delay, bench.device.now, aux⟩ := by
      rw [hdeadline]
      simp only [Device.expiry, timeLimit, UInt64.size] at hfits' ⊢
      omega
    have hpos : 0 < delay.toNat := by
      refine Nat.pos_of_ne_zero fun hzero => hdelay ?_
      rw [← UInt32.toNat_inj]
      exact hzero
    have hearly : bench.device.now < Request.deadline ⟨action, delay, bench.device.now, aux⟩ := by
      rw [hdeadline]
      exact Nat.lt_add_of_pos_right hpos
    refine settled_reaches hnest limit _
      ⟨h.hooks, h.willing.tail rfl, congrArg some hexpiry, ?_, ?_⟩
    · rintro r ⟨⟩
      exact Nat.le_refl _
    · rintro r ⟨⟩
      exact hearly

/-- Ticks pass, and the pending request is performed if the clock has reached its deadline. -/
theorem advance_reaches (ticks : Nat) (h : bench.Calm) (hlimit : 0 < limit) :
    Reaches (take nest limit bench (.advance ticks)).1 (take nest limit bench (.advance ticks)).2
      (bench.agenda.take (.advance ticks)) := by
  have hnow : bench.device.now ≤ (bench.onDevice (·.tick ticks)).device.now :=
    Clock.now_mono (Clock.before_advance ticks bench.device.clock)
  have harmed := h.armed
  simp only [take, settled]
  rcases bench.advance_cases ticks with ⟨e, hexpiry, hdue, heq⟩ | ⟨hearly, heq⟩
  · -- the timer was armed for a request, which is due now
    rw [hexpiry, eq_comm, Option.map_eq_some_iff] at harmed
    obtain ⟨r, hpending, rfl⟩ := harmed
    rw [heq, Agenda.take_advance_of_due bench.agenda hpending hdue]
    exact settled_of_due hnest (bench.expired ticks) h.hooks h.willing rfl rfl hpending
      (Or.inr hdue) hlimit
  · have hearly' : ∀ r, bench.scheduler.pending = some r →
        (bench.device.clock.advance ticks).now < r.deadline := by
      intro r hpending
      exact hearly r.deadline (by rw [harmed, hpending]; rfl)
    rw [heq, Agenda.take_advance_of_early bench.agenda hearly']
    exact settled_reaches hnest limit (bench.onDevice (·.tick ticks))
      ⟨h.hooks, h.willing, h.armed, fun r hr => Nat.le_trans (h.made r hr) hnow, hearly'⟩

/-- **One turn on a scheduler at peace is one turn of its agenda**, after which there is peace again. -/
theorem take_reaches (turn : Turn) (h : bench.Calm) (hfits : turn.Fits bench.device.clock)
    (hlimit : 0 < limit) :
    Reaches (take nest limit bench turn).1 (take nest limit bench turn).2
      (bench.agenda.take turn) := by
  cases turn with
  | schedule action delay aux => exact schedule_reaches hnest action delay aux h hfits hlimit
  | advance ticks => exact advance_reaches hnest ticks h hlimit
  | expire => exact settled_reaches hnest limit _ h.timerExpired
  | execute => exact execute_reaches hnest h

/-! ## Turn after turn -/

theorem clock_take (turn : Turn) (h : bench.Calm) (hfits : turn.Fits bench.device.clock)
    (hlimit : 0 < limit) :
    (take nest limit bench turn).2.device.clock = turn.pass bench.device.clock := by
  have hpass := bench.agenda.clock_take turn
  rw [← (take_reaches hnest turn h hfits hlimit).agenda] at hpass
  exact hpass

/-- What is performed in one turn after another is what the agenda performs. -/
theorem performed_eq {turns : List Turn} (h : bench.Calm)
    (hfits : FitAll bench.device.clock turns) (hlimit : 0 < limit) :
    performed nest limit turns bench = bench.agenda.performed turns := by
  induction turns generalizing bench with
  | nil => rfl
  | cons turn turns ih =>
    obtain ⟨hperformed, hcalm, hagenda⟩ := take_reaches hnest turn h hfits.1 hlimit
    have hrest := hfits.2
    rw [← clock_take hnest turn h hfits.1 hlimit] at hrest
    rw [performed, Agenda.performed, hperformed, ih hcalm hrest, hagenda]

/-- What can be seen after one turn after another is what the agenda says. -/
theorem sights_eq {turns : List Turn} (h : bench.Calm)
    (hfits : FitAll bench.device.clock turns) (hlimit : 0 < limit) :
    sights nest limit turns bench = bench.agenda.sights turns := by
  induction turns generalizing bench with
  | nil => rfl
  | cons turn turns ih =>
    obtain ⟨-, hcalm, hagenda⟩ := take_reaches hnest turn h hfits.1 hlimit
    have hrest := hfits.2
    rw [← clock_take hnest turn h hfits.1 hlimit] at hrest
    rw [sights, Agenda.sights, ih hcalm hrest, hcalm.sight_eq, hagenda]

/-- **Stale wakes go unseen.** A fresh scheduler is at peace, and on a scheduler at peace wakes that
nothing asked for, wherever they are put between the turns of a run, change neither which actions are
performed, with which bytes and at which times, nor the pending request, the expiry of the timer and the
time left after any of the other turns. -/
theorem stale_wakes_unseen (hlimit : 0 < limit) :
    (∀ clock, (start clock).Calm) ∧
    ∀ (bench : Bench) (turns : List Turn), bench.Calm → FitAll bench.device.clock turns →
      performed nest limit turns bench =
          performed nest limit (turns.filter fun turn => !turn.stale) bench ∧
        sights nest limit turns bench =
          sights nest limit (turns.filter fun turn => !turn.stale) bench := by
  refine ⟨calm_start, fun bench turns h hfits => ⟨?_, ?_⟩⟩
  · calc performed nest limit turns bench
      _ = bench.agenda.performed turns := performed_eq hnest h hfits hlimit
      _ = bench.agenda.performed (turns.filter fun turn => !turn.stale) :=
        (Agenda.performed_filter turns bench.agenda).symm
      _ = performed nest limit (turns.filter fun turn => !turn.stale) bench :=
        (performed_eq hnest h hfits.filter hlimit).symm
  · calc sights nest limit turns bench
      _ = bench.agenda.sights turns := sights_eq hnest h hfits hlimit
      _ = bench.agenda.sights (turns.filter fun turn => !turn.stale) :=
        (Agenda.sights_filter turns bench.agenda).symm
      _ = sights nest limit (turns.filter fun turn => !turn.stale) bench :=
        (sights_eq hnest h hfits.filter hlimit).symm

end

/-- Stale wakes before a request, while it is pending, and after it has been performed. -/
def pestered : List Turn :=
  [.execute, .schedule .reconnect 50 7, .expire, .advance 20, .execute, .expire, .advance 30,
    .expire, .schedule .reboot 0 1, .execute]

theorem stale_wakes_unseen_pestered :
    0 < 20 ∧ FitAll ⟨0, 1000⟩ pestered ∧
      performed (fun _ bench => bench) 20 pestered (start ⟨0, 1000⟩) =
        performed (fun _ bench => bench) 20
          [.schedule .reconnect 50 7, .advance 20, .advance 30, .schedule .reboot 0 1]
          (start ⟨0, 1000⟩) ∧
      sights (fun _ bench => bench) 20 pestered (start ⟨0, 1000⟩) =
        sights (fun _ bench => bench) 20
          [.schedule .reconnect 50 7, .advance 20, .advance 30, .schedule .reboot 0 1]
          (start ⟨0, 1000⟩) := by
  have hfits : FitAll ⟨0, 1000⟩ pestered :=
    ⟨trivial, fun _ => by decide, trivial, trivial, trivial, trivial, trivial, trivial,
      fun _ => by decide, trivial, trivial⟩
  exact ⟨by decide, hfits,
    (stale_wakes_unseen (fun _ => rfl) (by decide)).2 _ pestered (calm_start ⟨0, 1000⟩) hfits⟩

end Bench

end Firmware.Schedule
