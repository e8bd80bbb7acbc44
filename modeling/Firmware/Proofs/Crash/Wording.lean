import Firmware.Proofs.Crash.Telling

/-!
# Every crash is told in full

Any bytes that are marked with a kind of crash hold a record, and the report of a record holds all of
its text: the longest name, the longest numbers and all registers fit the space of a report.

* `opens_display`, `closes_display`: the brackets that the text of a record stands between.
* `complete`: the report of a record is complete.
* `complete_of_decode`: so is that of any bytes that are marked with a kind of crash.
-/

namespace Firmware.Crash

open Memory Text

theorem Kind.opens_lead {kind : Kind} (h : kind ≠ .noCrash) : ['['] <+: kind.lead := by
  cases kind with
  | noCrash => exact absurd rfl h
  | _ => decide

namespace Record

theorem opens_display (record : Record) : ['['] <+: record.display := by
  have hlead := Kind.opens_lead record.kind_ne_noCrash
  rw [← take_display] at hlead
  exact hlead.trans (List.take_prefix 8 _)

theorem closes_of_getLast? {pieces : List (List Char)} (last : List Char)
    (hlast : pieces.getLast? = some last) (hcloses : "]\r\n".toList <:+ last) :
    "]\r\n".toList <:+ pieces.flatten := by
  obtain ⟨front, rfl⟩ := List.getLast?_eq_some_iff.1 hlast
  rw [List.flatten_append, List.flatten_singleton]
  exact hcloses.trans (List.suffix_append _ _)

theorem closes_display (record : Record) : "]\r\n".toList <:+ record.display := by
  cases record with
  | stackOverflow task => exact closes_of_getLast? "\"]\r\n".toList rfl (by decide)
  | assert | railAssert | stackProtector | runtimeError | exit =>
    exact closes_of_getLast? "]\r\n".toList rfl (List.suffix_refl _)
  | fault dump =>
    refine closes_of_getLast? "]\r\n".toList ?_ (List.suffix_refl _)
    rw [pieces, FaultDump.pieces, List.getLast?_append]
    rfl

end Record

namespace Report

/-- The report of a record tells all of it: its text is all pieces of the text of the record, however
they are split, it is valid, and it stands between brackets. -/
structure Complete (record : Record) : Prop where
  text_eq : (ofRecord record).text = record.pieces.flatten
  uncut : ∀ pieces, pieces.flatten = record.display →
    Clipped.write reportCapacity pieces = record.display
  fits : Utf8.size record.display ≤ reportCapacity
  valid : Utf8.parse (Utf8.encode (ofRecord record).text) = .ok (ofRecord record).text
  opens : ['['] <+: (ofRecord record).text
  closes : "]\r\n".toList <:+ (ofRecord record).text

theorem complete (record : Record) : Complete record where
  text_eq := text_ofRecord record
  uncut := by
    intro pieces hpieces
    have hfits := record.size_display_le
    rw [← hpieces] at hfits ⊢
    exact Clipped.write_eq_flatten _ _ hfits
  fits := record.size_display_le
  valid := Utf8.parse_eq_ok_iff.2 rfl
  opens := text_ofRecord record ▸ record.opens_display
  closes := text_ofRecord record ▸ record.closes_display

/-- **Every crash is told in full.** Bytes that are marked with a kind of crash hold a record, whatever
the other bytes are, the report of it has the kind that they are marked with, and it is complete. So is
the report of every other record. -/
theorem complete_of_decode :
    (∀ raw : RawRecord, 1 ≤ raw.kind.toNat → raw.kind.toNat ≤ 7 →
      ∃ record, raw.decode? = some record ∧ (ofRecord record).kind.code = raw.kind ∧
        Complete record) ∧
    ∀ record, Complete record := by
  refine ⟨fun raw hlow hhigh => ?_, complete⟩
  have hmarked : raw.decode?.isSome := by
    rw [RawRecord.decode?_isSome_iff, Kind.ofStored?_isSome_iff]
    omega
  obtain ⟨record, hrecord⟩ := Option.isSome_iff_exists.1 hmarked
  refine ⟨record, hrecord, ?_, complete record⟩
  rw [kind_ofRecord]
  exact RawRecord.kind_code_of_decode? hrecord

/-- Memory that was never written: the name is no text, and the line is as long as it can be. -/
theorem complete_of_decode_garbage :
    let raw : RawRecord := ⟨Kind.assert.code, Block.fit 0xff []⟩
    1 ≤ raw.kind.toNat ∧ raw.kind.toNat ≤ 7 ∧
      ∃ record, raw.decode? = some record ∧
        (ofRecord record).text = "[ASSERT in  on line 4294967295]\r\n".toList ∧
        (ofRecord record).kind.code = raw.kind := by
  intro raw
  have hlow : 1 ≤ raw.kind.toNat := by decide
  have hhigh : raw.kind.toNat ≤ 7 := by decide
  obtain ⟨record, hrecord, hkind, htold⟩ := complete_of_decode.1 raw hlow hhigh
  have htext : raw.decode?.map Record.display = some "[ASSERT in  on line 4294967295]\r\n".toList := by
    decide +kernel
  rw [hrecord] at htext
  exact ⟨hlow, hhigh, record, hrecord, htold.text_eq.trans (Option.some.inj htext), hkind⟩

end Report

end Firmware.Crash
