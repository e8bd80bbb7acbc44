import Mathlib.Data.List.TakeWhile
import Firmware.Proofs.Text.WellFormed
import Firmware.Text.Clipped

/-!
# The front of a text

What is kept of a text that is too long is a front of it, and of the fronts that fit the longest. Two
ways lead there: one takes characters as long as they fit, the other takes bytes and steps back to the
last boundary between characters.

* `isBoundary_encode_iff`: the boundaries in the bytes of a text are the sizes of its fronts.
* `longest_fitting`: the characters that fit are the longest front that fits.
* `cut_eq_encode_fitting`: stepping back to a boundary keeps the same characters.
-/

namespace Firmware.Text

/-- The longest front of a list that has a property: every other such front is a front of it. -/
structure Longest {α : Type} (p : List α → Prop) (whole kept : List α) : Prop where
  front : kept <+: whole
  holds : p kept
  longest : ∀ other, other <+: whole → p other → other <+: kept

namespace Longest

variable {α : Type} {p : List α → Prop} {whole kept kept' : List α}

theorem unique (h : Longest p whole kept) (h' : Longest p whole kept') : kept = kept' := by
  have hle := h'.longest kept h.front h.holds
  have hge := h.longest kept' h'.front h'.holds
  exact hle.eq_of_length_le hge.length_le

theorem congr {q : List α → Prop} (hpq : ∀ front, front <+: whole → (p front ↔ q front))
    (h : Longest p whole kept) : Longest q whole kept where
  front := h.front
  holds := (hpq kept h.front).1 h.holds
  longest := fun other hother hq => h.longest other hother ((hpq other hother).2 hq)

/-- Of a front that goes as far as the longest one, that is the longest too. -/
theorem of_front {part : List α} (h : Longest p whole kept) (hpart : part <+: whole)
    (hkept : kept <+: part) : Longest p part kept where
  front := hkept
  holds := h.holds
  longest := fun other hother hp => h.longest other (hother.trans hpart) hp

/-- The longest front whose elements have a property besides goes up to the first that has not. -/
theorem takeWhile {q : α → Bool} (h : Longest p whole kept) (hp : p (kept.takeWhile q)) :
    Longest (fun front => p front ∧ ∀ x ∈ front, q x) whole (kept.takeWhile q) where
  front := (List.takeWhile_prefix q).trans h.front
  holds := ⟨hp, fun _ hx => List.mem_takeWhile_imp hx⟩
  longest := by
    rintro other hother ⟨hpother, hq⟩
    obtain ⟨rest, rfl⟩ := h.longest other hother hpother
    rw [List.takeWhile_append_of_pos hq]
    exact List.prefix_append other _

end Longest

namespace Utf8

variable {front text : List Char} {bytes : List UInt8} {max offset : Nat}

/-! ## Fronts and their bytes -/

theorem encode_front (h : front <+: text) : encode front <+: encode text := by
  obtain ⟨rest, rfl⟩ := h
  rw [encode_append]
  exact List.prefix_append _ _

theorem front_of_encode (h : encode front <+: encode text) : front <+: text := by
  obtain ⟨rest, hrest⟩ := h
  have hfront := validPrefix_append front rest
  rw [hrest, validPrefix_encode] at hfront
  rw [hfront]
  exact List.prefix_append _ _

theorem size_front_le (h : front <+: text) : size front ≤ size text := by
  rw [← length_encode, ← length_encode]
  exact (encode_front h).length_le

/-- Each character takes space, so a front of the same size is the whole text. -/
theorem front_eq_of_size_le (h : front <+: text) (hsize : size text ≤ size front) :
    front = text := by
  rw [← length_encode, ← length_encode] at hsize
  exact encode_injective ((encode_front h).eq_of_length_le hsize)

/-- The longest front of a text, told by its bytes. -/
theorem longest_encode {p : List Char → Prop} {q : List UInt8 → Prop}
    (hq : ∀ bytes, bytes <+: encode text → (q bytes ↔ ∃ front, encode front = bytes ∧ p front))
    (h : Longest p text front) : Longest q (encode text) (encode front) where
  front := encode_front h.front
  holds := (hq _ (encode_front h.front)).2 ⟨front, rfl, h.holds⟩
  longest := by
    intro other hother hqother
    obtain ⟨front', rfl, hp⟩ := (hq other hother).1 hqother
    exact encode_front (h.longest front' (front_of_encode hother) hp)

/-! ## Boundaries -/

theorem isBoundary_iff : isBoundary bytes offset ↔
    offset = 0 ∨ offset = bytes.length ∨ ∃ b, bytes[offset]? = some b ∧ ¬ continues b := by
  rw [isBoundary]
  cases hbyte : bytes[offset]? with
  | none =>
    have hlen := List.getElem?_eq_none_iff.1 hbyte
    simp only [beq_iff_eq, reduceCtorEq, false_and, exists_false, or_false]
    omega
  | some b =>
    have hlt := (List.getElem?_eq_some_iff.1 hbyte).1
    have hne : offset ≠ bytes.length := Nat.ne_of_lt hlt
    simp [hne]

theorem isBoundary_zero (bytes : List UInt8) : isBoundary bytes 0 := isBoundary_iff.2 (.inl rfl)

/-- No boundary lies within a character. -/
theorem continues_of_lt {c : Char} (rest : List UInt8) (hpos : 0 < offset)
    (hlt : offset < c.utf8Size) :
    ∃ b, (String.utf8EncodeChar c ++ rest)[offset]? = some b ∧ continues b := by
  obtain ⟨lead, tail, heq, -, htail⟩ := continues_of_sequence (sequence_utf8EncodeChar c)
  have hlen := String.length_utf8EncodeChar c
  rw [heq, List.length_cons] at hlen
  obtain ⟨i, rfl⟩ : ∃ i, offset = i + 1 := ⟨offset - 1, by omega⟩
  have hi : i < tail.length := by omega
  refine ⟨tail[i], ?_, htail _ (List.getElem_mem hi)⟩
  rw [heq, List.cons_append, List.getElem?_cons_succ, List.getElem?_append_left hi,
    List.getElem?_eq_getElem hi]

theorem exists_front_of_isBoundary (h : isBoundary (encode text) offset) :
    ∃ front, front <+: text ∧ size front = offset := by
  induction text generalizing offset with
  | nil =>
    have hzero : offset = 0 := by simpa [isBoundary_iff] using h
    exact ⟨[], List.nil_prefix, hzero.symm⟩
  | cons c text ih =>
    rcases Nat.eq_zero_or_pos offset with rfl | hpos
    · exact ⟨[], List.nil_prefix, rfl⟩
    rw [isBoundary_iff, encode_cons, List.length_append, String.length_utf8EncodeChar] at h
    rcases Nat.lt_or_ge offset c.utf8Size with hlt | hge
    · obtain ⟨b, hb, hcontinues⟩ := continues_of_lt (encode text) hpos hlt
      rcases h with hzero | hend | ⟨b', hb', hlead⟩
      · omega
      · omega
      · rw [hb, Option.some.injEq] at hb'
        exact absurd (hb' ▸ hcontinues) hlead
    -- past the first character it is a boundary of the rest
    · obtain ⟨rest, rfl⟩ := Nat.exists_eq_add_of_le hge
      have hrest : isBoundary (encode text) rest := by
        rw [List.getElem?_append_right (by rw [String.length_utf8EncodeChar]; omega),
          String.length_utf8EncodeChar, Nat.add_sub_cancel_left] at h
        rw [isBoundary_iff]
        rcases h with hzero | hend | hlead
        · exact .inl (by omega)
        · exact .inr (.inl (by omega))
        · exact .inr (.inr hlead)
      obtain ⟨front, hfront, rfl⟩ := ih hrest
      exact ⟨c :: front, List.cons_prefix_cons.2 ⟨rfl, hfront⟩, rfl⟩

theorem isBoundary_of_front (h : front <+: text) : isBoundary (encode text) (size front) := by
  obtain ⟨rest, rfl⟩ := h
  have hbyte : (encode (front ++ rest))[size front]? = (encode rest)[0]? := by
    rw [encode_append, ← length_encode, List.getElem?_append_right (Nat.le_refl _), Nat.sub_self]
  rw [isBoundary_iff, hbyte]
  cases rest with
  | nil => exact .inr (.inl (by rw [List.append_nil, length_encode]))
  | cons c rest =>
    obtain ⟨lead, tail, heq, hlead, -⟩ := continues_of_sequence (sequence_utf8EncodeChar c)
    refine .inr (.inr ⟨lead, ?_, hlead⟩)
    rw [encode_cons, heq, List.cons_append, List.getElem?_cons_zero]

/-- **The boundaries in the bytes of a text are the sizes of its fronts.** -/
theorem isBoundary_encode_iff :
    isBoundary (encode text) offset ↔ ∃ front, front <+: text ∧ size front = offset := by
  constructor
  · exact exists_front_of_isBoundary
  · rintro ⟨front, hfront, rfl⟩
    exact isBoundary_of_front hfront

/-- Some bytes of a text end at a boundary exactly if they are those of a front. -/
theorem isBoundary_length_iff (h : bytes <+: encode text) :
    isBoundary (encode text) bytes.length ↔ ∃ front, encode front = bytes := by
  rw [isBoundary_encode_iff]
  constructor
  · rintro ⟨front, hfront, hsize⟩
    refine ⟨front, ?_⟩
    rw [← length_encode] at hsize
    exact (List.prefix_of_prefix_length_le (encode_front hfront) h (Nat.le_of_eq hsize)).eq_of_length
      hsize
  · rintro ⟨front, rfl⟩
    exact ⟨front, front_of_encode h, (length_encode front).symm⟩

/-! ## Cutting -/

theorem isBoundary_alignDown (bytes : List UInt8) (offset : Nat) :
    isBoundary bytes (alignDown bytes offset) := by
  induction offset with
  | zero => exact isBoundary_zero bytes
  | succ offset ih =>
    rw [alignDown]
    split
    next h => exact h
    next => exact ih

/-- No boundary is passed over. -/
theorem le_alignDown {boundary : Nat} (h : isBoundary bytes boundary) (hle : boundary ≤ offset) :
    boundary ≤ alignDown bytes offset := by
  induction offset with
  | zero => exact hle
  | succ offset ih =>
    rw [alignDown]
    split
    next => exact hle
    next hnot =>
      have hne : boundary ≠ offset + 1 := fun heq => hnot (heq ▸ h)
      exact ih (by omega)

end Utf8

namespace Clipped

open Utf8

variable {front text : List Char} {room : Nat}

theorem fitting_front (room : Nat) (text : List Char) : fitting room text <+: text := by
  induction text generalizing room with
  | nil => exact List.nil_prefix
  | cons c text ih =>
    rw [fitting]
    split
    · exact List.cons_prefix_cons.2 ⟨rfl, ih _⟩
    · exact List.nil_prefix

theorem front_fitting (h : front <+: text) (hsize : size front ≤ room) :
    front <+: fitting room text := by
  induction text generalizing front room with
  | nil => exact h
  | cons c text ih =>
    cases front with
    | nil => exact List.nil_prefix
    | cons d front =>
      obtain ⟨rfl, hfront⟩ := List.cons_prefix_cons.1 h
      rw [size] at hsize
      rw [fitting, if_pos (by omega)]
      exact List.cons_prefix_cons.2 ⟨rfl, ih hfront (by omega)⟩

/-- **The characters that fit are the longest front that fits.** -/
theorem longest_fitting (room : Nat) (text : List Char) :
    Longest (fun front => size front ≤ room) text (fitting room text) :=
  ⟨fitting_front room text, size_fitting_le room text, fun _ => front_fitting⟩

end Clipped

/-- **Stepping back to a boundary keeps the characters that fit.** -/
theorem Utf8.cut_eq_encode_fitting (max : Nat) (text : List Char) :
    cut max text = encode (Clipped.fitting max text) := by
  obtain ⟨front, hfront, hsize⟩ := isBoundary_encode_iff.1
    (isBoundary_alignDown (encode text) (min (encode text).length max))
  have hmin := alignDown_le (encode text) (min (encode text).length max)
  rw [← hsize] at hmin
  have hcut : cut max text = encode front := by
    rw [cut, ← hsize, ← length_encode]
    exact (List.prefix_iff_eq_take.1 (encode_front hfront)).symm
  have hkept := Clipped.longest_fitting max text
  have hle := hkept.longest front hfront (by omega)
  -- the characters that fit end at a boundary too, which was not passed over
  have hsmall : size (Clipped.fitting max text) ≤ min (encode text).length max := by
    have hbytes := size_front_le hkept.front
    have hfits := hkept.holds
    rw [← length_encode text] at hbytes
    exact Nat.le_min.2 ⟨hbytes, hfits⟩
  have hge := le_alignDown (isBoundary_of_front hkept.front) hsmall
  rw [hcut, front_eq_of_size_le hle (by omega)]

end Firmware.Text
