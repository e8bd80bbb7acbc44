import Firmware.Crash.Handler
import Firmware.Proofs.Crash.Image

/-!
# The crash handler as a machine on records

Seen from outside, the handler keeps at most one record and the result of the last check; that the
record is kept as bytes, which anybody may overwrite, does not show.

* `call_view`: one call answers as the machine does and keeps the view.
* `answers_eq_machine`: so does every sequence of calls, from any memory; a crash is reported at
  most once, and of several crashes the last.
-/

namespace Firmware.Crash

open Memory Text Handler

/-- What the handler keeps, as it looks from outside. -/
structure Machine where
  pending : Option Record
  /-- The result of the last check. -/
  latched : Option Report

namespace Machine

/-- Carries out a call. -/
def call (m : Machine) : Call → Answer × Machine
  | .assertFailed file line => (.reset, { m with pending := some (.ofAssert file line) })
  | .railAssert code => (.reset, { m with pending := some (.railAssert code) })
  | .stackOverflow task => (.reset, { m with pending := some (.ofStackOverflow task) })
  | .stackProtector address => (.reset, { m with pending := some (.stackProtector address) })
  | .runtimeError code => (.reset, { m with pending := some (.runtimeError code) })
  | .abnormalExit status => (.reset, { m with pending := some (.exit status) })
  | .capture writes =>
    (.reset, { m with pending := (writes.getLast?.map Slot.Write.record?).getD m.pending })
  | .hardFault frame status =>
    (.reset, { m with pending := some (.fault (FaultDump.ofParts frame status)) })
  | .systemReset => (.reset, m)
  | .init reason =>
    if reason = .system then (.kept (m.pending.map Record.kind) [.read, .clear], m)
    else (.kept none [.read, .clear], { m with pending := none })
  | .clear => (.nothing, { m with pending := none })
  | .read => (.record m.pending, m)
  | .check =>
    (.report (m.pending.map Report.ofRecord), ⟨none, m.pending.map Report.ofRecord⟩)
  | .last => (.report m.latched, m)
  | .lastText => (.text ((m.latched.map Report.text).getD noCrashText.toList), m)

end Machine

/-- What a sequence of calls is answered. -/
def answers {σ : Type} (call : σ → Call → Answer × σ) : List Call → σ → List Answer
  | [], _ => []
  | c :: calls, s => (call s c).1 :: answers call calls (call s c).2

/-- What a sequence of calls leaves behind. -/
def after {σ : Type} (call : σ → Call → Answer × σ) (calls : List Call) (s : σ) : σ :=
  calls.foldl (fun s c => (call s c).2) s

namespace Handler

/-- The handler as it looks from outside. -/
def view (handler : Handler) : Machine := ⟨handler.slot.read?, handler.last⟩

/-- The call stores a crash. -/
def Call.Crashes : Call → Prop
  | .capture writes => writes ≠ []
  | .assertFailed .. | .railAssert _ | .stackOverflow _ | .stackProtector _ | .runtimeError _
  | .abnormalExit _ | .hardFault .. => True
  | _ => False

/-- The call drops the record that is kept. -/
def Call.Drops : Call → Prop
  | .clear | .check => True
  | .init reason => reason ≠ .system
  | _ => False

/-! ## One call -/

/-- A capture leaves the record of the last of its changes. -/
theorem read?_capture (writes : List Slot.Write) (handler : Handler) :
    (handler.capture writes).slot.read? =
      (writes.getLast?.map Slot.Write.record?).getD handler.slot.read? := by
  rcases List.eq_nil_or_concat writes with rfl | ⟨writes, change, rfl⟩
  · rfl
  · rw [capture, List.concat_eq_append, List.foldl_append, List.getLast?_concat]
    exact Slot.read?_apply change _

theorem view_capture (writes : List Slot.Write) (handler : Handler) :
    (handler.capture writes).view =
      ⟨(writes.getLast?.map Slot.Write.record?).getD handler.slot.read?, handler.last⟩ := by
  rw [view, read?_capture]
  rfl

theorem recover_eq (reason : ResetReason) (slot : Slot) :
    (slot.recover reason).1 = (if reason = .system then slot.read?.map Record.kind else none) ∧
      (slot.recover reason).2.read? = if reason = .system then slot.read? else none := by
  have hrequest : reason.isSoftwareRequest = true ↔ reason = .system := beq_iff_eq
  by_cases hsystem : reason = .system
  · rw [if_pos hsystem, if_pos hsystem]
    simp only [Slot.recover, if_pos (hrequest.2 hsystem), true_and]
    cases hread : slot.read? with
    | none => exact Slot.read?_zero
    | some record => exact hread
  · rw [if_neg hsystem, if_neg hsystem]
    simp only [Slot.recover, if_neg fun h => hsystem (hrequest.1 h), true_and]
    exact Slot.read?_zero

/-- Taking a report leaves no record, by whichever of the two tests for one. -/
theorem takeReport_eq (slot : Slot) :
    slot.takeReport.1 = slot.read?.map Report.ofRecord ∧ slot.takeReport.2.read? = none := by
  refine ⟨rfl, ?_⟩
  simp only [Slot.takeReport]
  split
  · exact Slot.read?_zero
  next hkind =>
    rw [← Option.not_isSome_iff_eq_none, Slot.read?, RawRecord.decode?_isSome_iff]
    exact hkind

/-- **One call answers as the machine does** and leaves what the machine leaves. -/
theorem call_view (handler : Handler) (c : Call) :
    (handler.call c).1 = (handler.view.call c).1 ∧
      (handler.call c).2.view = (handler.view.call c).2 := by
  cases c with
  | assertFailed file line => exact ⟨rfl, view_capture _ handler⟩
  | railAssert code => exact ⟨rfl, view_capture _ handler⟩
  | stackOverflow task => exact ⟨rfl, view_capture _ handler⟩
  | stackProtector address => exact ⟨rfl, view_capture _ handler⟩
  | runtimeError code => exact ⟨rfl, view_capture _ handler⟩
  | abnormalExit status => exact ⟨rfl, view_capture _ handler⟩
  | capture writes => exact ⟨rfl, view_capture _ handler⟩
  | hardFault frame status => exact ⟨rfl, view_capture _ handler⟩
  | systemReset => exact ⟨rfl, rfl⟩
  | init reason =>
    obtain ⟨hkept, hread⟩ := recover_eq reason handler.slot
    simp only [call, init, Machine.call, view, hkept, hread]
    by_cases hsystem : reason = .system
    · simp only [if_pos hsystem, and_self]
    · simp only [if_neg hsystem, and_self]
  | clear =>
    simp only [call, Machine.call, view, Slot.read?_zero, and_self]
  | read => exact ⟨rfl, rfl⟩
  | check =>
    obtain ⟨hreport, hread⟩ := takeReport_eq handler.slot
    simp only [call, check, Machine.call, view, hreport, hread, and_self]
  | last => exact ⟨rfl, rfl⟩
  | lastText =>
    refine ⟨?_, rfl⟩
    simp only [call, Machine.call, lastText, view]
    cases handler.last <;> rfl

end Handler

/-! ## Sequences of calls -/

theorem answers_view (calls : List Call) (handler : Handler) :
    answers Handler.call calls handler = answers Machine.call calls handler.view := by
  induction calls generalizing handler with
  | nil => rfl
  | cons c calls ih =>
    obtain ⟨hanswer, hview⟩ := call_view handler c
    rw [answers, answers, hanswer, ih, hview]

theorem after_view (calls : List Call) (handler : Handler) :
    (after Handler.call calls handler).view = after Machine.call calls handler.view := by
  induction calls generalizing handler with
  | nil => rfl
  | cons c calls ih =>
    rw [after, List.foldl_cons]
    exact (ih _).trans (congrArg (after Machine.call calls) (call_view handler c).2)

namespace Machine

/-- What a crash leaves does not depend on what was there. -/
theorem pending_of_crashes {c : Call} (h : c.Crashes) (m m' : Machine) :
    (m.call c).2.pending = (m'.call c).2.pending := by
  cases c with
  | capture writes =>
    obtain ⟨change, hchange⟩ := Option.ne_none_iff_exists'.1 fun hnone =>
      h (List.getLast?_eq_none_iff.1 hnone)
    simp only [call, hchange, Option.map_some, Option.getD_some]
  | systemReset | init _ | clear | read | check | last | lastText => cases h
  | _ => rfl

theorem pending_of_drops {c : Call} (h : c.Drops) (m : Machine) : (m.call c).2.pending = none := by
  cases c with
  | init reason => rw [call, if_neg h]
  | clear | check => rfl
  | _ => cases h

theorem pending_of_quiet {c : Call} (h : ¬ c.Crashes) (hdrops : ¬ c.Drops) (m : Machine) :
    (m.call c).2.pending = m.pending := by
  cases c with
  | capture writes =>
    obtain rfl : writes = [] := Decidable.not_not.1 h
    rfl
  | init reason => rw [call, if_pos (Decidable.not_not.1 hdrops)]
  | clear | check => exact absurd trivial hdrops
  | systemReset | read | last | lastText => rfl
  | _ => exact absurd trivial h

/-- Calls that store no crash keep the record until one of them drops it. -/
theorem pending_after_quiet {quiet : List Call} (h : ∀ c ∈ quiet, ¬ c.Crashes) (m : Machine) :
    ((∀ c ∈ quiet, ¬ c.Drops) → (after Machine.call quiet m).pending = m.pending) ∧
      ((∃ c ∈ quiet, c.Drops) ∨ m.pending = none →
        (after Machine.call quiet m).pending = none) := by
  induction quiet generalizing m with
  | nil => exact ⟨fun _ => rfl, fun hor => hor.resolve_left (by simp)⟩
  | cons c quiet ih =>
    obtain ⟨hkeep, hdrop⟩ := ih (fun c hc => h c (List.mem_cons_of_mem _ hc)) (m.call c).2
    have hcrash := h c List.mem_cons_self
    refine ⟨fun hquiet => ?_, fun hor => ?_⟩
    -- nothing drops the record
    · have hfirst := pending_of_quiet hcrash (hquiet c List.mem_cons_self) m
      exact (hkeep fun c hc => hquiet c (List.mem_cons_of_mem _ hc)).trans hfirst
    -- the record is dropped by the first call or later, or there was none
    · refine hdrop ?_
      by_cases hc : c.Drops
      · exact Or.inr (pending_of_drops hc m)
      rcases hor with ⟨d, hd, hdrops⟩ | hnone
      · rcases List.mem_cons.1 hd with rfl | hd
        · exact absurd hdrops hc
        · exact Or.inl ⟨d, hd, hdrops⟩
      · exact Or.inr ((pending_of_quiet hcrash hc m).trans hnone)

end Machine

theorem check_after (calls : List Call) (handler : Handler) :
    (after Handler.call calls handler).check.1 =
      (after Machine.call calls handler.view).pending.map Report.ofRecord := by
  rw [← after_view]
  rfl

/-- **The handler answers every sequence of calls as the machine on records does**, whatever the
memory held. The record that a change of a capture leaves is the decoding of the bytes it leaves. So
a crash is reported at most once, and of several crashes before a check the last is the one that is
reported, unless it was dropped. -/
theorem answers_eq_machine (handler : Handler) :
    (∀ calls, answers Handler.call calls handler =
      answers Machine.call calls ⟨handler.slot.raw.decode?, handler.last⟩) ∧
    (∀ (change : Slot.Write) (slot : Slot), change.record? = (slot.apply change).raw.decode?) ∧
    (∀ calls quiet, (∀ c ∈ quiet, ¬ c.Crashes) →
      (after Handler.call (calls ++ .check :: quiet) handler).check.1 = none) ∧
    ∀ calls crash quiet, crash.Crashes → (∀ c ∈ quiet, ¬ c.Crashes) →
      ((∀ c ∈ quiet, ¬ c.Drops) →
        (after Handler.call (calls ++ crash :: quiet) handler).check.1 =
          (Machine.call ⟨none, none⟩ crash).2.pending.map Report.ofRecord) ∧
      ((∃ c ∈ quiet, c.Drops) →
        (after Handler.call (calls ++ crash :: quiet) handler).check.1 = none) := by
  refine ⟨fun calls => answers_view calls handler,
    fun change slot => (Slot.read?_apply change slot).symm, fun calls quiet hquiet => ?_,
    fun calls crash quiet hcrash hquiet => ⟨fun hkept => ?_, fun hdropped => ?_⟩⟩
  · rw [check_after, after, List.foldl_append, List.foldl_cons]
    exact congrArg _ ((Machine.pending_after_quiet hquiet _).2 (Or.inr rfl))
  · rw [check_after, after, List.foldl_append, List.foldl_cons]
    refine congrArg _ (((Machine.pending_after_quiet hquiet _).1 hkept).trans ?_)
    exact Machine.pending_of_crashes hcrash _ _
  · rw [check_after, after, List.foldl_append, List.foldl_cons]
    exact congrArg _ ((Machine.pending_after_quiet hquiet _).2 (Or.inl hdropped))

end Firmware.Crash
