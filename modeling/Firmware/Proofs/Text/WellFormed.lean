import Firmware.Proofs.Text.Decoding

/-!
# Well-formed UTF-8

Which sequences of bytes stand for a character, told by the ranges that each of their bytes may lie in.
The first byte gives the length; after four of the first bytes the second has to keep to a part of its
range, so that there is no longer form of what a shorter one can say, no surrogate, and no number past
the last character.

* `sequence_iff`: these are the sequences that the characters are encoded as.
* `wellFormed_iff`: bytes that are made of such sequences are the encodings of texts.
* `continues_of_sequence`: the bytes after the first are those that go on with a character.
-/

namespace Firmware.Text.Utf8

/-- The bytes of one character. -/
inductive Sequence : List UInt8 → Prop
  | one {a : UInt8} (ha : a < 0x80) : Sequence [a]
  | two {a b : UInt8} (ha : 0xc2 ≤ a ∧ a < 0xe0) (hb : continues b) : Sequence [a, b]
  | three {a b c : UInt8} (ha : 0xe0 ≤ a ∧ a < 0xf0) (hb : continues b) (hc : continues c)
    (hshort : a = 0xe0 → 0xa0 ≤ b) (hsurrogate : a = 0xed → b < 0xa0) : Sequence [a, b, c]
  | four {a b c d : UInt8} (ha : 0xf0 ≤ a ∧ a < 0xf5) (hb : continues b) (hc : continues c)
    (hd : continues d) (hshort : a = 0xf0 → 0x90 ≤ b) (hlarge : a = 0xf4 → b < 0x90) :
    Sequence [a, b, c, d]

/-- Bytes that are sequences one after another. -/
inductive WellFormed : List UInt8 → Prop
  | nil : WellFormed []
  | cons {sequence rest : List UInt8} (hsequence : Sequence sequence) (hrest : WellFormed rest) :
    WellFormed (sequence ++ rest)

theorem continues_iff (b : UInt8) : continues b ↔ 0x80 ≤ b.toNat ∧ b.toNat < 0xc0 := by
  simp [continues, UInt8.le_iff_toNat_le, UInt8.lt_iff_toNat_lt]

/-! ## One character -/

/-- Six bits of a number, as they go on with a character. -/
theorem continues_ofNat (n : Nat) : continues (UInt8.ofNat (n % 64 + 128)) := by
  rw [continues_iff, UInt8.toNat_ofNat']
  omega

/-- Every character is encoded as a sequence. -/
theorem sequence_utf8EncodeChar (c : Char) : Sequence (String.utf8EncodeChar c) := by
  have hvalid : c.val.toNat < 0xd800 ∨ 0xdfff < c.val.toNat ∧ c.val.toNat < 0x110000 := c.valid
  unfold String.utf8EncodeChar
  generalize c.val.toNat = v at hvalid
  dsimp only
  split
  · refine .one ?_
    simp only [UInt8.lt_iff_toNat_lt, UInt8.toNat_ofNat', UInt8.reduceToNat]
    omega
  split
  · refine .two ?_ (continues_ofNat _)
    simp only [UInt8.lt_iff_toNat_lt, UInt8.le_iff_toNat_le, UInt8.toNat_ofNat', UInt8.reduceToNat]
    omega
  split
  · refine .three ?_ (continues_ofNat _) (continues_ofNat _) ?_ ?_ <;>
      simp only [← UInt8.toNat_inj, UInt8.lt_iff_toNat_lt, UInt8.le_iff_toNat_le,
        UInt8.toNat_ofNat', UInt8.reduceToNat] <;>
      omega
  · refine .four ?_ (continues_ofNat _) (continues_ofNat _) (continues_ofNat _) ?_ ?_ <;>
      simp only [← UInt8.toNat_inj, UInt8.lt_iff_toNat_lt, UInt8.le_iff_toNat_le,
        UInt8.toNat_ofNat', UInt8.reduceToNat] <;>
      omega

theorem exists_val_eq {v : Nat} (h : v < 0xd800 ∨ 0xdfff < v ∧ v < 0x110000) :
    ∃ c : Char, c.val.toNat = v := ⟨Char.ofNatAux v h, rfl⟩

theorem ofNat_eq {n : Nat} {b : UInt8} (h : n = b.toNat) : UInt8.ofNat n = b := by
  rw [h, UInt8.ofNat_toNat]

/-- Every sequence is the encoding of the character whose number its bytes make up. -/
theorem exists_of_sequence {bytes : List UInt8} (h : Sequence bytes) :
    ∃ c, String.utf8EncodeChar c = bytes := by
  cases h with
  | @one a ha =>
    simp only [UInt8.lt_iff_toNat_lt, UInt8.reduceToNat] at ha
    obtain ⟨c, hc⟩ := exists_val_eq (v := a.toNat) (Or.inl (by omega))
    refine ⟨c, ?_⟩
    rw [String.utf8EncodeChar, hc, if_pos (by omega), UInt8.ofNat_toNat]
  | @two a b ha hb =>
    simp only [UInt8.lt_iff_toNat_lt, UInt8.le_iff_toNat_le, UInt8.reduceToNat, continues_iff]
      at ha hb
    obtain ⟨c, hc⟩ := exists_val_eq (v := (a.toNat - 0xc0) * 64 + (b.toNat - 0x80)) (by omega)
    refine ⟨c, ?_⟩
    rw [String.utf8EncodeChar, hc, if_neg (by omega), if_pos (by omega),
      ofNat_eq (b := a) (by omega), ofNat_eq (b := b) (by omega)]
  | @three a b d ha hb hd hshort hsurrogate =>
    simp only [UInt8.lt_iff_toNat_lt, UInt8.le_iff_toNat_le, ← UInt8.toNat_inj, UInt8.reduceToNat,
      continues_iff] at ha hb hd hshort hsurrogate
    obtain ⟨c, hc⟩ := exists_val_eq
      (v := (a.toNat - 0xe0) * 4096 + (b.toNat - 0x80) * 64 + (d.toNat - 0x80)) (by omega)
    refine ⟨c, ?_⟩
    rw [String.utf8EncodeChar, hc, if_neg (by omega), if_neg (by omega), if_pos (by omega),
      ofNat_eq (b := a) (by omega), ofNat_eq (b := b) (by omega), ofNat_eq (b := d) (by omega)]
  | @four a b d e ha hb hd he hshort hlarge =>
    simp only [UInt8.lt_iff_toNat_lt, UInt8.le_iff_toNat_le, ← UInt8.toNat_inj, UInt8.reduceToNat,
      continues_iff] at ha hb hd he hshort hlarge
    obtain ⟨c, hc⟩ := exists_val_eq (v := (a.toNat - 0xf0) * 262144 + (b.toNat - 0x80) * 4096 +
      (d.toNat - 0x80) * 64 + (e.toNat - 0x80)) (by omega)
    refine ⟨c, ?_⟩
    rw [String.utf8EncodeChar, hc, if_neg (by omega), if_neg (by omega), if_neg (by omega),
      ofNat_eq (b := a) (by omega), ofNat_eq (b := b) (by omega), ofNat_eq (b := d) (by omega),
      ofNat_eq (b := e) (by omega)]

/-- **The sequences are the encodings of the characters.** -/
theorem sequence_iff (bytes : List UInt8) :
    Sequence bytes ↔ ∃ c, String.utf8EncodeChar c = bytes := by
  constructor
  · exact exists_of_sequence
  · rintro ⟨c, rfl⟩
    exact sequence_utf8EncodeChar c

/-- The first byte of a sequence begins a character, and the others go on with it. -/
theorem continues_of_sequence {bytes : List UInt8} (h : Sequence bytes) :
    ∃ lead tail, bytes = lead :: tail ∧ ¬ continues lead ∧ ∀ b ∈ tail, continues b := by
  have hlead : ∀ {a : UInt8}, a < 0x80 ∨ 0xc2 ≤ a → ¬ continues a := by
    intro a ha
    simp only [UInt8.lt_iff_toNat_lt, UInt8.le_iff_toNat_le, UInt8.reduceToNat] at ha
    rw [continues_iff]
    omega
  cases h with
  | @one a ha => exact ⟨a, [], rfl, hlead (.inl ha), by simp⟩
  | @two a b ha hb => exact ⟨a, [b], rfl, hlead (.inr ha.1), by simp [hb]⟩
  | @three a b c ha hb hc =>
    exact ⟨a, [b, c], rfl, hlead (.inr (UInt8.le_trans (by decide) ha.1)), by simp [hb, hc]⟩
  | @four a b c d ha hb hc hd =>
    exact ⟨a, [b, c, d], rfl, hlead (.inr (UInt8.le_trans (by decide) ha.1)), by simp [hb, hc, hd]⟩

/-! ## Texts -/

theorem wellFormed_encode (text : List Char) : WellFormed (encode text) := by
  induction text with
  | nil => exact .nil
  | cons c text ih => exact .cons (sequence_utf8EncodeChar c) ih

/-- **Bytes are well-formed exactly if they are the encoding of a text.** -/
theorem wellFormed_iff (bytes : List UInt8) : WellFormed bytes ↔ ∃ text, encode text = bytes := by
  constructor
  · intro h
    induction h with
    | nil => exact ⟨[], rfl⟩
    | cons hsequence _ ih =>
      obtain ⟨c, rfl⟩ := exists_of_sequence hsequence
      obtain ⟨text, rfl⟩ := ih
      exact ⟨c :: text, rfl⟩
  · rintro ⟨text, rfl⟩
    exact wellFormed_encode text

/-- Bytes are well-formed if the text at their front is all of them. -/
theorem encode_validPrefix_eq_iff (bytes : List UInt8) :
    encode (validPrefix bytes) = bytes ↔ WellFormed bytes := by
  constructor
  · exact fun hall => hall ▸ wellFormed_encode _
  · intro h
    obtain ⟨text, rfl⟩ := (wellFormed_iff bytes).1 h
    rw [validPrefix_encode]

instance (bytes : List UInt8) : Decidable (WellFormed bytes) :=
  decidable_of_iff _ (encode_validPrefix_eq_iff bytes)

-- two bytes where one would do, a surrogate, a number past the last character, a lost last byte
example : ∀ bytes ∈ [[0xc0, 0x80], [0xed, 0xa0, 0x80], [0xf4, 0x90, 0x80, 0x80], [0xe2, 0x82]],
    ¬ WellFormed bytes := by
  decide +kernel

end Firmware.Text.Utf8
