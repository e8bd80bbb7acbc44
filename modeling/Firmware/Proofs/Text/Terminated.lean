import Firmware.Proofs.Text.Names

/-!
# What a buffer is made of

A buffer is a text, the terminator that ends it, and what is left after that. The terminator is always
there, in the last byte at the latest. What is left after it tells two values apart whose texts are the
same, so a text has many buffers, but only one of them is zero after the text.

* `toList_eq_append`: the last byte of a buffer that was built is a terminator.
* `Terminated`, `Built.terminated`: what follows from that for every buffer that was built.
* `eq_iff`: two buffers are equal exactly if they have the same text and the same rest.
* `eq_of_bytes_eq`: where the rest is zeros, the text alone decides.
* `representation`: all of this, by the way a buffer was built.
-/

namespace Firmware.Text.Bounded

open Memory

variable {capacity : Nat} {text other : Bounded capacity}

/-- A buffer into which nothing has been put. -/
instance : Inhabited (Bounded capacity) := ⟨empty⟩

/-! ## The terminator -/

theorem empty_eq : (empty : Bounded capacity) = ofTerminated [] := by
  apply ext_toList
  rw [toList_ofTerminated, CString.untilZero, List.take_nil, List.takeWhile_nil]
  rfl

/-- A buffer is built from a terminated string, or taken over as it was found. -/
theorem Built.cases (h : text.Built) :
    (∃ input, text = Bounded.ofTerminated input) ∨ ∃ raw, text = Bounded.ofRaw raw := by
  cases h with
  | empty => exact Or.inl ⟨[], empty_eq⟩
  | ofText input => exact Or.inl ⟨Utf8.cut capacity input, rfl⟩
  | ofTerminated input => exact Or.inl ⟨input, rfl⟩
  | ofRaw raw => exact Or.inr ⟨raw, rfl⟩

/-- **The last byte is a terminator**, however a buffer was built. -/
theorem toList_eq_append (h : text.Built) :
    text.buffer.toList = text.buffer.toList.take capacity ++ [0] := by
  rcases h.cases with ⟨input, rfl⟩ | ⟨raw, rfl⟩
  · rw [toList_ofTerminated]
    exact (take_zeroFilled (CString.length_untilZero_le capacity input)).symm
  · have hlength : (raw.toList.take capacity).length = capacity := by
      rw [List.length_take, raw.length_toList]
      omega
    rw [toList_ofRaw, List.take_left' hlength]

theorem ofRaw_buffer (h : text.Built) : ofRaw text.buffer = text := by
  apply ext_toList
  rw [toList_ofRaw]
  exact (toList_eq_append h).symm

theorem isEmpty_iff (text : Bounded capacity) : text.isEmpty ↔ text.bytes.length = 0 := by
  have hlength := text.buffer.length_toList
  unfold isEmpty bytes
  cases hlist : text.buffer.toList with
  | nil =>
    rw [hlist] at hlength
    cases hlength
  | cons first rest =>
    rw [List.head?_cons, List.length_eq_zero_iff, List.takeWhile_cons]
    by_cases hfirst : first = 0 <;> simp [hfirst]

/-- The first zero stands right after the text. -/
theorem findIdx?_eq (h : text.Built) :
    text.buffer.toList.findIdx? (· == 0) = some text.bytes.length := by
  have hzero : 0 ∈ text.buffer.toList := by
    rw [toList_eq_append h]
    exact List.mem_append_right _ (List.mem_singleton.2 rfl)
  have hfound : text.buffer.toList.findIdx (· == 0) < text.buffer.toList.length :=
    List.findIdx_lt_length.2 ⟨0, hzero, by decide⟩
  have hbytes : text.bytes.length = text.buffer.toList.findIdx (· == 0) := by
    rw [bytes, takeWhile_eq_take_findIdx, List.length_take]
    omega
  rw [hbytes, List.findIdx?_eq_some_iff_findIdx_eq]
  exact ⟨hfound, rfl⟩

/-- What holds of a buffer with a terminator in its last byte. -/
structure Terminated (text : Bounded capacity) : Prop where
  last : text.buffer.toList.getLast? = some 0
  /-- A search for a zero comes to an end at the end of the text. -/
  found : text.buffer.toList.findIdx? (· == 0) = some text.bytes.length
  front : text.bytes = text.buffer.toList.take text.bytes.length
  zero_notMem : 0 ∉ text.bytes
  length_le : text.bytes.length ≤ capacity
  isEmpty_iff : text.isEmpty ↔ text.bytes.length = 0
  /-- To take the buffer over once more changes nothing. -/
  ofRaw_buffer : ofRaw text.buffer = text

/-- **Every buffer that was built is terminated.** -/
theorem Built.terminated (h : text.Built) : text.Terminated where
  last := by
    rw [toList_eq_append h]
    exact List.getLast?_concat
  found := findIdx?_eq h
  front := List.prefix_iff_eq_take.1 (List.takeWhile_prefix _)
  zero_notMem := zero_notMem_bytes text
  length_le := length_bytes_le h
  isEmpty_iff := text.isEmpty_iff
  ofRaw_buffer := Bounded.ofRaw_buffer h

/-! ## The rest -/

/-- What a buffer holds from the terminator on. -/
def rest (text : Bounded capacity) : List UInt8 := text.buffer.toList.dropWhile (· ≠ 0)

theorem bytes_append_rest (text : Bounded capacity) :
    text.bytes ++ text.rest = text.buffer.toList := List.takeWhile_append_dropWhile

/-- **Two buffers are equal exactly if they have the same text and the same rest.** -/
theorem eq_iff : text = other ↔ text.bytes = other.bytes ∧ text.rest = other.rest := by
  constructor
  · rintro rfl
    exact ⟨rfl, rfl⟩
  · rintro ⟨hbytes, hrest⟩
    apply ext_toList
    rw [← bytes_append_rest, ← bytes_append_rest, hbytes, hrest]

/-- Zeros are known by their number, which the text leaves no choice for. -/
theorem rest_of_zeroTailed (h : text.ZeroTailed) :
    text.rest = List.replicate (capacity + 1 - text.bytes.length) 0 := by
  have hlength : text.bytes.length + text.rest.length = capacity + 1 := by
    rw [← List.length_append, bytes_append_rest, text.buffer.length_toList]
  have hzeros : text.rest = List.replicate text.rest.length 0 := List.eq_replicate_of_mem h
  rw [hzeros, ← hlength, Nat.add_sub_cancel_left]

/-- **Where the rest is zeros, the text alone decides.** -/
theorem eq_of_bytes_eq (h : text.ZeroTailed) (h' : other.ZeroTailed)
    (hbytes : text.bytes = other.bytes) : text = other := by
  rw [eq_iff, rest_of_zeroTailed h, rest_of_zeroTailed h', hbytes]
  exact ⟨rfl, rfl⟩

theorem zeroTailed_ofTerminated (input : List UInt8) :
    (ofTerminated input : Bounded capacity).ZeroTailed :=
  (cleared_eq_self_iff _).1 (cleared_ofTerminated input)

/-- Of the buffers with the same text, one is zero after it. -/
theorem eq_ofTerminated_iff (h : text.Built) :
    other.bytes = text.bytes ∧ other.ZeroTailed ↔ other = ofTerminated text.bytes := by
  have hbytes : (ofTerminated text.bytes : Bounded capacity).bytes = text.bytes := by
    rw [ofTerminated_bytes h, bytes_cleared h]
  constructor
  · rintro ⟨hsame, hzeros⟩
    exact eq_of_bytes_eq hzeros (zeroTailed_ofTerminated _) (hsame.trans hbytes.symm)
  · rintro rfl
    exact ⟨hbytes, zeroTailed_ofTerminated _⟩

/-! ## By the way a buffer was built -/

/-- The ways to build a buffer that take none over as it was found. -/
inductive Copied : Bounded capacity → Prop
  | empty : Copied empty
  | ofText (input : List Char) : Copied (ofText input)
  | ofTerminated (input : List UInt8) : Copied (ofTerminated input)

theorem Copied.built (h : text.Copied) : text.Built := by
  cases h with
  | empty => exact .empty
  | ofText input => exact .ofText input
  | ofTerminated input => exact .ofTerminated input

theorem Copied.zeroTailed (h : text.Copied) : text.ZeroTailed := by
  cases h with
  | empty =>
    rw [empty_eq]
    exact zeroTailed_ofTerminated []
  | ofText input => exact zeroTailed_ofTerminated _
  | ofTerminated input => exact zeroTailed_ofTerminated input

/-- **What a buffer stands for.** A buffer that was built, in whatever way, is terminated, and its text
is what was put in, up to the first zero and as far as there is room. Of the buffers that were not taken
over as they were found, two are equal exactly if their texts are; of the others they are equal exactly
if what follows the texts is the same too. Building a buffer again from its text gives the one that has
this text and is zero after it. -/
theorem representation (h : text.Built) :
    text.Terminated ∧
    (∀ input, (ofTerminated input : Bounded capacity).bytes =
      (input.takeWhile (· ≠ 0)).take capacity) ∧
    (∀ raw : Block (capacity + 1), (ofRaw raw).bytes =
      (raw.toList.takeWhile (· ≠ 0)).take capacity) ∧
    (default : Bounded capacity).Copied ∧
    (∀ copied : Bounded capacity, copied.Copied → copied.Built ∧ copied.ZeroTailed ∧
      ∀ other : Bounded capacity, other.Copied →
        (copied = other ↔ copied.bytes = other.bytes)) ∧
    (∀ other : Bounded capacity, text = other ↔
      text.bytes = other.bytes ∧ text.rest = other.rest) ∧
    ∀ other : Bounded capacity,
      other.bytes = text.bytes ∧ other.ZeroTailed ↔ other = ofTerminated text.bytes := by
  refine ⟨h.terminated, fun input => ?_, fun raw => ?_, .empty, fun copied hcopied => ?_,
    fun _ => eq_iff, fun _ => eq_ofTerminated_iff h⟩
  · rw [bytes_ofTerminated, List.take_takeWhile]
    rfl
  · rw [bytes_ofRaw, List.take_takeWhile]
    rfl
  · refine ⟨hcopied.built, hcopied.zeroTailed, fun other hother => ⟨congrArg bytes, ?_⟩⟩
    exact eq_of_bytes_eq hcopied.zeroTailed hother.zeroTailed

/-- A buffer as it was found, with something left after its text, which is lost when it is built again
from that. -/
theorem representation_found :
    let text : Bounded 4 := ofRaw ⟨[0x6f, 0x6b, 0, 0x21, 0x21], rfl⟩
    text.Built ∧ text.Terminated ∧ text.bytes = [0x6f, 0x6b] ∧ text.rest = [0, 0x21, 0] ∧
      ofTerminated text.bytes ≠ text ∧
      ∀ other : Bounded 4, other.bytes = [0x6f, 0x6b] ∧ other.ZeroTailed ↔
        other = ofTerminated [0x6f, 0x6b] := by
  intro text
  have hbuilt : text.Built := .ofRaw _
  have hbytes : text.bytes = [0x6f, 0x6b] := by decide +kernel
  have hrest : text.rest = [0, 0x21, 0] := by decide +kernel
  obtain ⟨hterminated, -, -, -, -, hequal, hunique⟩ := representation hbuilt
  rw [hbytes] at hunique
  refine ⟨hbuilt, hterminated, hbytes, hrest, fun hsame => ?_, hunique⟩
  have hsame' := ((hequal _).1 hsame.symm).2
  rw [hrest, hbytes] at hsame'
  exact absurd hsame' (by decide +kernel)

end Firmware.Text.Bounded
