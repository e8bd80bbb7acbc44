import Firmware.Text.Bounded

/-!
# The text at the front of bytes

* `validPrefix_append`: a text at the front of bytes is decoded, and then what follows.
* `encode_validPrefix`: what is decoded was there.
* `parse_eq_ok_iff`: bytes are read as a text exactly if they are its encoding.
* `parse_of_error`: what was found valid of other bytes is read when it is tried alone.
-/

namespace Firmware.Text

namespace Utf8

theorem first?_encode_append (c : Char) (rest : List UInt8) :
    first? (String.utf8EncodeChar c ++ rest) = some c := by
  rw [first?, List.toByteArray_append]
  exact ByteArray.utf8DecodeChar?_utf8EncodeChar_append

theorem exists_of_first? {bytes : List UInt8} {c : Char} (h : first? bytes = some c) :
    ∃ rest, bytes = String.utf8EncodeChar c ++ rest := by
  obtain ⟨rest, hrest⟩ := ByteArray.exists_of_utf8DecodeChar?_eq_some h
  refine ⟨rest.data.toList, ?_⟩
  have hdata := congrArg (fun array => array.data.toList) hrest
  simpa using hdata

theorem validPrefix_encode_append (c : Char) (rest : List UInt8) :
    validPrefix (String.utf8EncodeChar c ++ rest) = c :: validPrefix rest := by
  have hlen := String.length_utf8EncodeChar c
  have hpos := c.utf8Size_pos
  have hfirst := first?_encode_append c rest
  obtain ⟨b, bs, hbs⟩ := List.exists_cons_of_length_pos (hlen ▸ hpos)
  rw [hbs, List.length_cons] at hlen
  rw [hbs, List.cons_append] at hfirst ⊢
  rw [validPrefix, decodeFrom, hfirst]
  dsimp only
  rw [decodeFrom_eq, ← hlen, Nat.add_sub_cancel, List.drop_left]

theorem validPrefix_of_first?_none {bytes : List UInt8} (h : first? bytes = none) :
    validPrefix bytes = [] := by
  cases bytes with
  | nil => rfl
  | cons b bs => rw [validPrefix, decodeFrom, h]

/-- **What is decoded was there**: the bytes begin with the encoding of their text. -/
theorem encode_validPrefix (bytes : List UInt8) : encode (validPrefix bytes) <+: bytes := by
  induction hn : bytes.length using Nat.strongRecOn generalizing bytes with
  | ind n ih =>
    cases hfirst : first? bytes with
    | none =>
      rw [validPrefix_of_first?_none hfirst]
      exact List.nil_prefix
    | some c =>
      obtain ⟨rest, rfl⟩ := exists_of_first? hfirst
      have hlen := String.length_utf8EncodeChar c
      have hpos := c.utf8Size_pos
      rw [List.length_append] at hn
      rw [validPrefix_encode_append, encode_cons, List.prefix_append_right_inj]
      exact ih rest.length (by omega) rest rfl

theorem size_validPrefix_le (bytes : List UInt8) : size (validPrefix bytes) ≤ bytes.length := by
  rw [← length_encode]
  exact (encode_validPrefix bytes).length_le

/-- A text at the front of bytes is decoded, and then what follows it. -/
theorem validPrefix_append (text : List Char) (rest : List UInt8) :
    validPrefix (encode text ++ rest) = text ++ validPrefix rest := by
  induction text with
  | nil => rfl
  | cons c text ih =>
    rw [encode_cons, List.append_assoc, validPrefix_encode_append, ih, List.cons_append]

theorem validPrefix_encode (text : List Char) : validPrefix (encode text) = text := by
  have hnil : validPrefix [] = [] := rfl
  have happend := validPrefix_append text []
  rwa [hnil, List.append_nil, List.append_nil] at happend

theorem encode_injective : Function.Injective encode :=
  Function.LeftInverse.injective (g := validPrefix) validPrefix_encode

/-! ## Reading all of some bytes -/

variable {bytes : List UInt8} {text : List Char} {invalid : Invalid}

/-- Bytes are read as a text exactly if they are its encoding. -/
theorem parse_eq_ok_iff : parse bytes = .ok text ↔ encode text = bytes := by
  rw [parse]
  constructor
  · intro h
    split at h
    next hsize =>
      obtain rfl : validPrefix bytes = text := Except.ok.inj h
      refine (encode_validPrefix bytes).eq_of_length ?_
      rw [length_encode, hsize]
    next => cases h
  · rintro rfl
    rw [validPrefix_encode, if_pos (length_encode text).symm]

/-- What was found valid is read when it is tried alone. -/
theorem parse_of_error (h : parse bytes = .error invalid) :
    parse (bytes.take invalid.validUpTo) = .ok (validPrefix bytes) := by
  have hsize : size (validPrefix bytes) = invalid.validUpTo := by
    rw [parse] at h
    split at h
    next => cases h
    next => exact congrArg Invalid.validUpTo (Except.error.inj h)
  rw [parse_eq_ok_iff, ← hsize, ← length_encode]
  exact List.prefix_iff_eq_take.1 (encode_validPrefix bytes)

end Utf8

namespace Bounded

variable {capacity : Nat}

/-- The characters of a text are all that can be decoded of its bytes. -/
theorem chars_eq_validPrefix (text : Bounded capacity) :
    text.chars = Utf8.validPrefix text.bytes := by
  rw [chars]
  split
  next hread => rw [← Utf8.parse_eq_ok_iff.1 hread, Utf8.validPrefix_encode]
  next hread => rw [Utf8.parse_of_error hread]

/-- A text is no longer than the buffer that holds it. -/
theorem size_chars_le (text : Bounded capacity) : Utf8.size text.chars ≤ capacity + 1 := by
  have hbytes := (List.takeWhile_prefix (l := text.buffer.toList) (· ≠ 0)).length_le
  rw [text.buffer.length_toList] at hbytes
  rw [chars_eq_validPrefix]
  exact Nat.le_trans (Utf8.size_validPrefix_le _) hbytes

end Bounded

end Firmware.Text
