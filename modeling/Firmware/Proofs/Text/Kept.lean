import Firmware.Proofs.Text.Fronts
import Firmware.Proofs.Text.Names

/-!
# What a buffer keeps of a text

A text is cut to the size of its buffer at a character, and at its first zero character; bytes that
were found in a buffer are shown as far as they are a text. Neither loses more than it has to.

* `chars_longest`: the characters of a buffer are the longest well-formed front of its bytes.
* `chars_ofText`: the characters that are kept of a text.
* `ofText_longest`: they are the longest front of the text that fits and has no zero.
-/

namespace Firmware.Text

open Memory

namespace Utf8

/-! ## Zeros -/

theorem eq_of_zero_mem {bytes : List UInt8} (h : Sequence bytes) (hzero : 0 ∈ bytes) :
    bytes = [0] := by
  have hcontinues : ¬ continues 0 := by decide
  have hne : ∀ {b : UInt8}, continues b → 0 ≠ b := fun hb heq => hcontinues (heq ▸ hb)
  have hlead : ∀ {a low : UInt8}, ¬ low ≤ 0 → low ≤ a → 0 ≠ a :=
    fun hlow ha heq => hlow (heq ▸ ha)
  cases h with
  | one => rw [List.mem_singleton.1 hzero]
  | two ha hb => simp [hlead (by decide) ha.1, hne hb] at hzero
  | three ha hb hc => simp [hlead (by decide) ha.1, hne hb, hne hc] at hzero
  | four ha hb hc hd => simp [hlead (by decide) ha.1, hne hb, hne hc, hne hd] at hzero

/-- Only the zero character has a zero byte. -/
theorem zero_mem_utf8EncodeChar_iff (c : Char) : 0 ∈ String.utf8EncodeChar c ↔ c = '\x00' := by
  constructor
  · intro hzero
    have hbytes : encode [c] = encode ['\x00'] := by
      rw [encode_cons, eq_of_zero_mem (sequence_utf8EncodeChar c) hzero]
      rfl
    exact (List.cons.inj (encode_injective hbytes)).1
  · rintro rfl
    decide

theorem zero_mem_encode_iff (text : List Char) : 0 ∈ encode text ↔ '\x00' ∈ text := by
  rw [encode, List.mem_flatMap]
  constructor
  · rintro ⟨c, hc, hzero⟩
    exact (zero_mem_utf8EncodeChar_iff c).1 hzero ▸ hc
  · intro hzero
    exact ⟨'\x00', hzero, by decide⟩

/-- The bytes of a text up to the first zero are those of its characters up to there. -/
theorem takeWhile_encode (text : List Char) :
    (encode text).takeWhile (· ≠ 0) = encode (text.takeWhile (· ≠ '\x00')) := by
  induction text with
  | nil => rfl
  | cons c text ih =>
    rw [encode_cons]
    by_cases hc : c = '\x00'
    · subst hc
      rfl
    have hbytes : 0 ∉ String.utf8EncodeChar c := fun h => hc ((zero_mem_utf8EncodeChar_iff c).1 h)
    rw [List.takeWhile_append_of_pos (forall_decide_ne_iff.2 hbytes), ih,
      List.takeWhile_cons_of_pos (by simpa using hc), encode_cons]

/-! ## What is decoded -/

/-- What is decoded of some bytes is the longest text at their front. -/
theorem longest_validPrefix (bytes : List UInt8) :
    Longest WellFormed bytes (encode (validPrefix bytes)) where
  front := encode_validPrefix bytes
  holds := wellFormed_encode _
  longest := by
    rintro other ⟨rest, rfl⟩ hother
    obtain ⟨text, rfl⟩ := (wellFormed_iff other).1 hother
    rw [validPrefix_append]
    exact encode_front (List.prefix_append _ _)

end Utf8

namespace Bounded

variable {capacity : Nat}

/-- **The characters of a buffer are the longest well-formed front of its bytes**, well-formed being
the encodings of texts. All of the bytes are shown exactly if they are well-formed. Where they are not,
the part that was found valid is read when it is tried alone, and no longer part would be. -/
theorem chars_longest (text : Bounded capacity) :
    Longest Utf8.WellFormed text.bytes (Utf8.encode text.chars) ∧
    (∀ bytes, Utf8.WellFormed bytes ↔ ∃ chars, Utf8.encode chars = bytes) ∧
    (Utf8.encode text.chars = text.bytes ↔ Utf8.WellFormed text.bytes) ∧
    ∀ invalid, Utf8.parse text.bytes = .error invalid →
      Utf8.parse (text.bytes.take invalid.validUpTo) = .ok text.chars ∧
      ∀ count, invalid.validUpTo < count → count ≤ text.bytes.length →
        ∀ chars, Utf8.parse (text.bytes.take count) ≠ .ok chars := by
  have hlongest := Utf8.longest_validPrefix text.bytes
  rw [← chars_eq_validPrefix] at hlongest
  refine ⟨hlongest, Utf8.wellFormed_iff, ?_, fun invalid hinvalid => ⟨?_, ?_⟩⟩
  · rw [chars_eq_validPrefix]
    exact Utf8.encode_validPrefix_eq_iff text.bytes
  · rw [chars_eq_validPrefix]
    exact Utf8.parse_of_error hinvalid
  · intro count hlt hle chars hread
    have hvalid := Utf8.parse_eq_ok_iff.1 (Utf8.parse_of_error hinvalid)
    have hfront := hlongest.longest (text.bytes.take count) (List.take_prefix _ _)
      (Utf8.parse_eq_ok_iff.1 hread ▸ Utf8.wellFormed_encode chars)
    have hlength := hfront.length_le
    rw [chars_eq_validPrefix, hvalid, List.length_take, List.length_take] at hlength
    omega

/-- A two-byte character of which the terminator took the second byte. -/
theorem chars_longest_cut_off :
    let text : Bounded 4 := ofRaw (Block.fit 0 [0x6f, 0x6b, 0xc3, 0, 0xa9])
    text.bytes = [0x6f, 0x6b, 0xc3] ∧ Utf8.parse text.bytes = .error ⟨2⟩ ∧
      Utf8.parse [0x6f, 0x6b] = .ok text.chars ∧ ¬ Utf8.WellFormed [0x6f, 0x6b, 0xc3] := by
  intro text
  have hbytes : text.bytes = [0x6f, 0x6b, 0xc3] := by decide +kernel
  have hparse : Utf8.parse text.bytes = .error ⟨2⟩ := by decide +kernel
  obtain ⟨-, -, hall, hvalid⟩ := chars_longest text
  have hread := (hvalid ⟨2⟩ hparse).1
  have hpart : ¬ Utf8.encode text.chars = text.bytes := by decide +kernel
  rw [hall, hbytes] at hpart
  rw [hbytes] at hread
  exact ⟨hbytes, hparse, hread, hpart⟩

/-! ## What is kept of a text -/

theorem bytes_ofText (text : List Char) : (ofText text : Bounded capacity).bytes =
    Utf8.encode ((Clipped.fitting capacity text).takeWhile (· ≠ '\x00')) := by
  have hfits := (Clipped.longest_fitting capacity text).holds
  rw [← Utf8.length_encode] at hfits
  rw [ofText, bytes_ofTerminated, Utf8.cut_eq_encode_fitting, CString.untilZero,
    List.take_of_length_le hfits, Utf8.takeWhile_encode]

/-- **What is kept of a text** are its characters up to the first that does not fit or is zero. -/
theorem chars_ofText (text : List Char) : (ofText text : Bounded capacity).chars =
    (Clipped.fitting capacity text).takeWhile (· ≠ '\x00') := by
  rw [chars_eq_validPrefix, bytes_ofText, Utf8.validPrefix_encode]

theorem encode_chars_ofText (text : List Char) :
    Utf8.encode (ofText text : Bounded capacity).chars = (ofText text : Bounded capacity).bytes := by
  rw [chars_ofText, bytes_ofText]

theorem longest_chars_ofText (text : List Char) :
    Longest (fun front => Utf8.size front ≤ capacity ∧ '\x00' ∉ front) text
      (ofText text : Bounded capacity).chars := by
  have hfitting := Clipped.longest_fitting capacity text
  have hle := Utf8.size_front_le
    (List.takeWhile_prefix (l := Clipped.fitting capacity text) (· ≠ '\x00'))
  rw [chars_ofText]
  refine (hfitting.takeWhile (Nat.le_trans hle hfitting.holds)).congr fun front _ => ?_
  exact and_congr_right fun _ => forall_decide_ne_iff

theorem toList_ofText (text : List Char) : (ofText text : Bounded capacity).buffer.toList =
    zeroFilled (capacity + 1) (ofText text : Bounded capacity).bytes := by
  rw [ofText, toList_ofTerminated, bytes_ofTerminated]

/-- A text is found again in its buffer if it fits and has no zero. -/
theorem holds_ofText_iff (text : List Char) : (ofText text : Bounded capacity).holds text ↔
    (Utf8.encode text).length ≤ capacity ∧ '\x00' ∉ text := by
  rw [holds, beq_iff_eq]
  constructor
  · intro hall
    have hzero := zero_notMem_bytes (ofText text : Bounded capacity)
    rw [hall, Utf8.zero_mem_encode_iff] at hzero
    rw [← hall]
    exact ⟨length_bytes_le (.ofText text), hzero⟩
  · rintro ⟨hfits, hzero⟩
    rw [Utf8.length_encode] at hfits
    rw [bytes_ofText, Clipped.fitting_eq_self capacity text hfits,
      List.takeWhile_eq_self_iff.2 (forall_decide_ne_iff.2 hzero)]

/-- **A buffer keeps as much of a text as fits**: of the fronts that end at a character, have no zero
and leave room for the terminator, the longest. All of it is valid, zeros follow it, and it is the whole
text exactly if that fits and has no zero. Two texts look the same in their buffers exactly if the
buffers are equal. -/
theorem ofText_longest (text other : List Char) :
    let kept : Bounded capacity := ofText text
    Longest
      (fun front => Utf8.isBoundary (Utf8.encode text) front.length ∧ 0 ∉ front ∧
        front.length ≤ capacity)
      (Utf8.encode text) kept.bytes ∧
    Utf8.encode kept.chars = kept.bytes ∧
    kept.buffer.toList = kept.bytes ++ List.replicate (capacity + 1 - kept.bytes.length) 0 ∧
    (kept.holds text ↔ (Utf8.encode text).length ≤ capacity ∧ '\x00' ∉ text) ∧
    (kept = ofText other ↔ kept.chars = (ofText other : Bounded capacity).chars) := by
  intro kept
  refine ⟨?_, encode_chars_ofText text, toList_ofText text, holds_ofText_iff text, ?_⟩
  · rw [← encode_chars_ofText]
    refine Utf8.longest_encode ?_ (longest_chars_ofText text)
    intro bytes hbytes
    rw [Utf8.isBoundary_length_iff hbytes]
    constructor
    · rintro ⟨⟨front, rfl⟩, hzero, hfits⟩
      rw [Utf8.zero_mem_encode_iff] at hzero
      rw [Utf8.length_encode] at hfits
      exact ⟨front, rfl, hfits, hzero⟩
    · rintro ⟨front, rfl, hfits, hzero⟩
      rw [Utf8.zero_mem_encode_iff, Utf8.length_encode]
      exact ⟨⟨front, rfl⟩, hzero, hfits⟩
  · constructor
    · exact fun hsame => congrArg chars hsame
    · intro hsame
      apply ext_toList
      rw [toList_ofText, toList_ofText, ← encode_chars_ofText, ← encode_chars_ofText, hsame]

-- a zero in front of a character that goes over the end
example : (ofText "ab\x00cdé".toList : Bounded 7).bytes = [0x61, 0x62] := by decide +kernel

end Bounded

end Firmware.Text
