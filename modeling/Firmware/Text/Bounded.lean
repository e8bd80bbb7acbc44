import Firmware.Memory.Block
import Firmware.Memory.CString
import Firmware.Text.Utf8

/-!
# Text in a fixed buffer

A text of at most `capacity` bytes in a buffer that has room for one byte more, the terminator. The
text is what stands before the first zero byte; what the buffer holds after it is not part of the
text, but two values are equal only if their whole buffers are.

* `toList_ofRaw`: a raw buffer is taken over up to its last byte, which becomes the terminator.
-/

namespace Firmware.Text

open Memory

/-- A buffer of `capacity + 1` bytes that holds a terminated text. -/
structure Bounded (capacity : Nat) where
  buffer : Block (capacity + 1)
deriving DecidableEq

namespace Bounded

variable {capacity : Nat}

/-- The empty text in a buffer of zeros. -/
def empty : Bounded capacity := ⟨Block.zero⟩

/-- A terminated string: the bytes up to the first zero, at most `capacity` of them, in a buffer that
holds zeros after them. -/
def ofTerminated (bytes : List UInt8) : Bounded capacity :=
  ⟨Block.fit 0 (CString.untilZero capacity bytes)⟩

/-- As much of a text as fits without splitting a character, up to its first zero character. -/
def ofText (text : List Char) : Bounded capacity := ofTerminated (Utf8.cut capacity text)

/-- A buffer as it was found in memory, with a terminator put into its last byte. -/
def ofRaw (raw : Block (capacity + 1)) : Bounded capacity := ⟨raw.write capacity [0]⟩

/-- The bytes before the terminator. -/
def bytes (text : Bounded capacity) : List UInt8 := text.buffer.toList.takeWhile (· ≠ 0)

/-- The characters of the text. Of bytes that are no text those are taken that were found valid, and
none should these be refused. -/
def chars (text : Bounded capacity) : List Char :=
  match Utf8.parse text.bytes with
  | .ok chars => chars
  | .error invalid =>
    match Utf8.parse (text.bytes.take invalid.validUpTo) with
    | .ok chars => chars
    | .error _ => []

/-- Whether the buffer begins with the terminator. -/
def isEmpty (text : Bounded capacity) : Bool := text.buffer.toList.head? == some 0

/-- Whether the bytes before the terminator are those of a given text. -/
def holds (text : Bounded capacity) (other : List Char) : Bool :=
  text.bytes == Utf8.encode other

theorem toList_ofRaw (raw : Block (capacity + 1)) :
    (ofRaw raw).buffer.toList = raw.toList.take capacity ++ [0] := by
  have hlen := raw.length_toList
  apply List.ext_getElem?
  intro i
  rw [ofRaw, Block.getElem?_write]
  rcases Nat.lt_trichotomy i capacity with h | h | h
  -- before the last byte nothing changes
  · rw [if_neg (by omega), List.getElem?_append_left (by simp; omega), List.getElem?_take, if_pos h]
  · subst h
    simp [hlen]
  · rw [if_neg (by simp; omega), List.getElem?_eq_none (by omega),
      List.getElem?_eq_none (by simp; omega)]

end Bounded

end Firmware.Text
