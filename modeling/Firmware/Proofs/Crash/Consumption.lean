import Firmware.Proofs.Crash.Machine

/-!
# A record is reported once

What readers make of a slot into which nobody writes any more. Some look at it, some report what it
holds, and a boot decides whether it is kept. However they follow one another, the record is reported
at most once, and only while nobody has dropped it.

* `read?_access`: an access keeps the record, unless it is one that drops it.
* `reply_takeReport`: what the taking of a report is answered, after any accesses.
* `reported_once`: at most one report comes out of a slot, and it comes by the first taking of one.
-/

namespace Firmware.Crash.Slot

open Memory

/-- What can be done to a slot by one who stores no crash. -/
inductive Access where
  | read
  | readKind
  | takeReport
  | recover (reason : ResetReason)
  | clear
deriving DecidableEq

/-- What an access is answered. -/
inductive Reply where
  | record (record : Option Record)
  | rawKind (code : UInt32)
  | report (report : Option Report)
  | kept (kind : Option Kind)
  | nothing
deriving DecidableEq

/-- Carries out an access. -/
def access (slot : Slot) : Access → Reply × Slot
  | .read => (.record slot.read?, slot)
  | .readKind => (.rawKind slot.rawKind, slot)
  | .takeReport => (.report slot.takeReport.1, slot.takeReport.2)
  | .recover reason => (.kept (slot.recover reason).1, (slot.recover reason).2)
  | .clear => (.nothing, zero)

/-- What accesses, one after another, are answered. -/
def replies : List Access → Slot → List Reply
  | [], _ => []
  | a :: accesses, slot => (slot.access a).1 :: replies accesses (slot.access a).2

/-- What accesses, one after another, leave behind. -/
def afterAccesses (accesses : List Access) (slot : Slot) : Slot :=
  accesses.foldl (fun slot a => (slot.access a).2) slot

/-- The access leaves no record behind. -/
def Access.Drops : Access → Prop
  | .takeReport | .clear => True
  | .recover reason => reason ≠ .system
  | .read | .readKind => False

variable {slot : Slot} {a : Access} {accesses before later : List Access}

/-! ## One access -/

theorem toList_zero : zero.memory.toList = List.replicate RawRecord.size 0 := by
  rw [zero, toList_ofRaw]
  decide

/-- The taking of a report leaves zeros exactly if there is a report; else it changes nothing. -/
theorem takeReport_cases (slot : Slot) :
    (slot.takeReport.1.isSome ∧ slot.takeReport.2 = zero) ∨
      (slot.takeReport.1 = none ∧ slot.takeReport.2 = slot) := by
  cases hreport : slot.takeReport.1 with
  | none => exact Or.inr ⟨rfl, takeReport_none hreport⟩
  | some report =>
    left
    -- where there is a report there is a record, so the kind marks one
    have hread : slot.raw.decode?.isSome := by
      have hmap : slot.read?.map Report.ofRecord = some report := hreport
      rw [read?] at hmap
      cases hdecode : slot.raw.decode? with
      | none => rw [hdecode] at hmap; cases hmap
      | some record => rfl
    have hkind : (Kind.ofStored? slot.rawKind).isSome := (RawRecord.decode?_isSome_iff _).1 hread
    exact ⟨rfl, by rw [takeReport, if_pos hkind]⟩

/-- A boot keeps the record and the memory, or keeps neither. -/
theorem recover_cases (reason : ResetReason) (slot : Slot) :
    (∃ record, slot.read? = some record ∧ slot.recover reason = (some record.kind, slot)) ∨
      slot.recover reason = (none, zero) := by
  cases hkept : (slot.recover reason).1 with
  | none => exact Or.inr (Prod.ext hkept (recover_none_cleared hkept))
  | some kind =>
    left
    have hread := (Handler.recover_eq reason slot).1
    rw [hkept] at hread
    split at hread
    · obtain ⟨record, hrecord, hkind⟩ := Option.map_eq_some_iff.1 hread.symm
      refine ⟨record, hrecord, Prod.ext (hkept.trans (congrArg some hkind.symm)) ?_⟩
      simp only [recover] at hkept ⊢
      rw [hkept]
      rfl
    · cases hread

/-- **An access keeps the record**, unless it is one that drops it. -/
theorem read?_access (slot : Slot) (a : Access) :
    (a.Drops → (slot.access a).2.read? = none) ∧
      (¬ a.Drops → (slot.access a).2.read? = slot.read?) := by
  cases a with
  | read | readKind => exact ⟨False.elim, fun _ => rfl⟩
  | takeReport => exact ⟨fun _ => (Handler.takeReport_eq slot).2, fun h => absurd trivial h⟩
  | recover reason =>
    have hread := (Handler.recover_eq reason slot).2
    refine ⟨fun hdrops => ?_, fun hkeeps => ?_⟩
    · rw [access, hread, if_neg hdrops]
    · rw [access, hread, if_pos (Decidable.not_not.1 hkeeps)]
  | clear => exact ⟨fun _ => read?_zero, fun h => absurd trivial h⟩

/-! ## Accesses one after another -/

/-- The record lasts until an access drops it. -/
theorem read?_afterAccesses (accesses : List Access) (slot : Slot) :
    ((∃ a ∈ accesses, a.Drops) → (afterAccesses accesses slot).read? = none) ∧
      ((∀ a ∈ accesses, ¬ a.Drops) → (afterAccesses accesses slot).read? = slot.read?) := by
  induction accesses generalizing slot with
  | nil => exact ⟨by simp, fun _ => rfl⟩
  | cons a accesses ih =>
    obtain ⟨hdropped, hkept⟩ := ih (slot.access a).2
    obtain ⟨hdrops, hkeeps⟩ := slot.read?_access a
    refine ⟨fun ⟨b, hb, hbdrops⟩ => ?_, fun hall => ?_⟩
    · by_cases hlater : ∃ c ∈ accesses, c.Drops
      · exact hdropped hlater
      · -- nothing later drops the record, so the first access did
        have hlast : ∀ c ∈ accesses, ¬ c.Drops := fun c hc hcdrops => hlater ⟨c, hc, hcdrops⟩
        rcases List.mem_cons.1 hb with rfl | hb
        · exact (hkept hlast).trans (hdrops hbdrops)
        · exact absurd hbdrops (hlast b hb)
    · have hfirst := hall a List.mem_cons_self
      exact (hkept fun c hc => hall c (List.mem_cons_of_mem _ hc)).trans (hkeeps hfirst)

theorem getElem?_replies (before : List Access) (a : Access) (later : List Access) (slot : Slot) :
    (replies (before ++ a :: later) slot)[before.length]? =
      some ((afterAccesses before slot).access a).1 := by
  induction before generalizing slot with
  | nil => rfl
  | cons b before ih =>
    rw [List.cons_append, replies, List.length_cons, List.getElem?_cons_succ, ih]
    rfl

/-- Only an access that is made is answered. -/
theorem exists_access_of_reply {i : Nat} {reply : Reply}
    (h : (replies accesses slot)[i]? = some reply) :
    ∃ before a later, accesses = before ++ a :: later ∧ before.length = i ∧
      reply = ((afterAccesses before slot).access a).1 := by
  induction accesses generalizing slot i with
  | nil => cases h
  | cons b accesses ih =>
    cases i with
    | zero => exact ⟨[], b, accesses, rfl, rfl, (Option.some.inj h).symm⟩
    | succ i =>
      rw [replies, List.getElem?_cons_succ] at h
      obtain ⟨before, a, later, rfl, hlength, hreply⟩ := ih h
      exact ⟨b :: before, a, later, rfl, congrArg (· + 1) hlength, hreply⟩

theorem report_access {slot : Slot} {a : Access} {report : Option Report}
    (h : (slot.access a).1 = .report report) :
    a = .takeReport ∧ report = slot.read?.map Report.ofRecord := by
  cases a with
  | takeReport => exact ⟨rfl, (Reply.report.inj h).symm⟩
  | _ => cases h

/-- **What the taking of a report is answered**: the report of the record that was there at first, if
no access has dropped it since. -/
theorem reply_takeReport (before : List Access) (slot : Slot) :
    ((∃ a ∈ before, a.Drops) → (afterAccesses before slot).takeReport.1 = none) ∧
      ((∀ a ∈ before, ¬ a.Drops) →
        (afterAccesses before slot).takeReport.1 = slot.raw.decode?.map Report.ofRecord) := by
  obtain ⟨hdropped, hkept⟩ := read?_afterAccesses before slot
  refine ⟨fun h => ?_, fun h => ?_⟩
  · rw [(Handler.takeReport_eq _).1, hdropped h]
    rfl
  · rw [(Handler.takeReport_eq _).1, hkept h]
    rfl

theorem forall_not_drops_iff (accesses : List Access) :
    (∀ a ∈ accesses, ¬ a.Drops) ↔ .takeReport ∉ accesses ∧ .clear ∉ accesses ∧
      ∀ reason, .recover reason ∈ accesses → reason = .system := by
  constructor
  · intro h
    refine ⟨fun htake => h _ htake trivial, fun hclear => h _ hclear trivial, fun reason hr => ?_⟩
    exact Decidable.not_not.1 (h _ hr)
  · rintro ⟨htake, hclear, hrecover⟩ a ha hdrops
    cases a with
    | read | readKind => exact hdrops
    | takeReport => exact htake ha
    | recover reason => exact hdrops (hrecover reason ha)
    | clear => exact hclear ha

/-- Of two reports that were given, none was given before the other: the first one dropped the
record. -/
theorem not_lt_of_reports {i j : Nat} {r r' : Report}
    (hi : (replies accesses slot)[i]? = some (.report (some r)))
    (hj : (replies accesses slot)[j]? = some (.report (some r'))) : ¬ i < j := by
  intro hlt
  obtain ⟨before, a, later, haccesses, rfl, hfirst⟩ := exists_access_of_reply hi
  obtain ⟨before', a', later', haccesses', rfl, hsecond⟩ := exists_access_of_reply hj
  obtain ⟨rfl, -⟩ := report_access hfirst.symm
  obtain ⟨rfl, hreport⟩ := report_access hsecond.symm
  have hmem : .takeReport ∈ before' := by
    have hget : (before' ++ .takeReport :: later')[before.length]? = some .takeReport := by
      rw [← haccesses', haccesses, List.getElem?_append_right (Nat.le_refl _), Nat.sub_self]
      rfl
    rw [List.getElem?_append_left hlt] at hget
    exact List.mem_of_getElem? hget
  have hnone := (read?_afterAccesses before' slot).1 ⟨.takeReport, hmem, trivial⟩
  rw [hnone] at hreport
  cases hreport

theorem isSome_report_iff (before : List Access) (slot : Slot) :
    (afterAccesses before slot).takeReport.1.isSome ↔ .takeReport ∉ before ∧
      (1 ≤ slot.rawKind.toNat ∧ slot.rawKind.toNat ≤ 7) ∧ .clear ∉ before ∧
        ∀ reason, .recover reason ∈ before → reason = .system := by
  obtain ⟨hdropped, hkept⟩ := reply_takeReport before slot
  by_cases hall : ∀ a ∈ before, ¬ a.Drops
  · obtain ⟨htake, hclear, hrecover⟩ := (forall_not_drops_iff before).1 hall
    rw [hkept hall, Option.isSome_map, RawRecord.decode?_isSome_iff, Kind.ofStored?_isSome_iff]
    refine ⟨fun h => ⟨htake, ⟨h.1, Nat.le_of_lt_succ h.2⟩, hclear, hrecover⟩, fun h => ?_⟩
    exact ⟨h.2.1.1, Nat.lt_succ_of_le h.2.1.2⟩
  · have hsome : ∃ a ∈ before, a.Drops := by
      by_contra hnone
      exact hall fun a ha hdrops => hnone ⟨a, ha, hdrops⟩
    rw [hdropped hsome]
    refine ⟨(nomatch ·), fun ⟨htake, _, hclear, hrecover⟩ => ?_⟩
    exact absurd ((forall_not_drops_iff before).2 ⟨htake, hclear, hrecover⟩) hall

theorem exists_record_of_report {r : Report} (h : (afterAccesses before slot).takeReport.1 = some r) :
    ∃ record, slot.raw.decode? = some record ∧ r = Report.ofRecord record := by
  obtain ⟨hdropped, hkept⟩ := reply_takeReport before slot
  by_cases hsome : ∃ a ∈ before, a.Drops
  · rw [hdropped hsome] at h
    cases h
  · rw [hkept fun a ha hdrops => hsome ⟨a, ha, hdrops⟩] at h
    obtain ⟨record, hrecord, hreport⟩ := Option.map_eq_some_iff.1 h
    exact ⟨record, hrecord, hreport.symm⟩

/-- **A record is reported at most once.** Whatever the memory held, and in whichever order a slot is
read, cleared, recovered and asked for its report: at most one request for a report is granted, and it
is the first. It is granted exactly if the kind marked a record at first, which was neither cleared
nor lost to a reset that the program had not asked for, and what it gives is the report of that
record. A report that is taken leaves zeros, and where there is none the memory stays as it is; a
recovery keeps all of the memory, or leaves zeros. -/
theorem reported_once (slot : Slot) (accesses : List Access) :
    (∀ (i j : Nat) (r r' : Report), (replies accesses slot)[i]? = some (.report (some r)) →
      (replies accesses slot)[j]? = some (.report (some r')) → i = j) ∧
    (∀ before later, accesses = before ++ .takeReport :: later →
      ∃ report, (replies accesses slot)[before.length]? = some (.report report) ∧
        (report.isSome ↔ .takeReport ∉ before ∧
          (1 ≤ slot.rawKind.toNat ∧ slot.rawKind.toNat ≤ 7) ∧ .clear ∉ before ∧
          ∀ reason, .recover reason ∈ before → reason = .system) ∧
        ∀ r, report = some r →
          ∃ record, slot.raw.decode? = some record ∧ r = Report.ofRecord record) ∧
    (∀ s : Slot,
      (s.takeReport.1.isSome ∧ s.takeReport.2.memory.toList = List.replicate RawRecord.size 0) ∨
        (s.takeReport.1 = none ∧ s.takeReport.2.memory = s.memory)) ∧
    ∀ (s : Slot) reason,
      (∃ record, s.read? = some record ∧ (s.recover reason).1 = some record.kind ∧
        (s.recover reason).2.memory = s.memory) ∨
      ((s.recover reason).1 = none ∧
        (s.recover reason).2.memory.toList = List.replicate RawRecord.size 0) := by
  refine ⟨fun i j r r' hi hj => ?_, ?_, fun s => ?_, fun s reason => ?_⟩
  · have h1 := not_lt_of_reports hi hj
    have h2 := not_lt_of_reports hj hi
    omega
  · rintro before later rfl
    exact ⟨_, getElem?_replies before .takeReport later slot, isSome_report_iff before slot,
      fun r hr => exists_record_of_report hr⟩
  · rcases s.takeReport_cases with ⟨hsome, hzero⟩ | ⟨hnone, hsame⟩
    · exact Or.inl ⟨hsome, by rw [hzero, toList_zero]⟩
    · exact Or.inr ⟨hnone, by rw [hsame]⟩
  · rcases s.recover_cases reason with ⟨record, hread, heq⟩ | heq
    · exact Or.inl ⟨record, hread, by rw [heq], by rw [heq]⟩
    · exact Or.inr ⟨by rw [heq], by rw [heq, toList_zero]⟩

/-- Garbage with the kind of a fault survives the reset and is reported, by the first of two requests
for a report. -/
theorem reported_once_garbage :
    let given := replies [.recover .system, .takeReport, .takeReport]
      (ofRaw ⟨5, Block.fit 0xa5 []⟩)
    ∃ r r', given[1]? = some (.report r) ∧ r.isSome ∧
      given[2]? = some (.report r') ∧ ¬ r'.isSome := by
  have hkind : (ofRaw ⟨5, Block.fit 0xa5 []⟩).rawKind = 5 := congrArg RawRecord.kind (raw_ofRaw _)
  obtain ⟨-, htakes, -⟩ := reported_once (ofRaw ⟨5, Block.fit 0xa5 []⟩)
    [.recover .system, .takeReport, .takeReport]
  obtain ⟨r, hr, hsome, -⟩ := htakes [.recover .system] [.takeReport] rfl
  obtain ⟨r', hr', hsome', -⟩ := htakes [.recover .system, .takeReport] [] rfl
  refine ⟨r, r', hr, hsome.2 ?_, hr', fun h => absurd (hsome'.1 h).1 (by decide)⟩
  rw [hkind]
  exact ⟨by decide, by decide, by decide, fun reason h => by simpa using h⟩

end Firmware.Crash.Slot
