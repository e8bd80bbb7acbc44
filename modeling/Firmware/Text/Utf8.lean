/-!
# Text as UTF-8

The encoding of a text, the longest text at the front of arbitrary bytes, and the cut of a text
after a given number of bytes that splits no character.

* `decode?_encode`: every text is read back from its bytes.
* `decodeFrom_eq`: a decoder that has bytes left over from the last character goes on after them.
* `alignDown_le`: a cut is moved to the front only.
-/

namespace Firmware.Text.Utf8

/-- The bytes of a text. -/
def encode (text : List Char) : List UInt8 := text.flatMap String.utf8EncodeChar

/-- The number of bytes of a text. -/
def size : List Char → Nat
  | [] => 0
  | c :: text => c.utf8Size + size text

/-- The character at the front of some bytes: `none` for an overlong form, a surrogate, a value that
is too large, a sequence that is cut off, and where there are no bytes. -/
def first? (bytes : List UInt8) : Option Char := bytes.toByteArray.utf8DecodeChar? 0

/-- Decodes up to the first byte that begins no character. The number counts the bytes that still
belong to the character decoded last. -/
def decodeFrom : Nat → List UInt8 → List Char
  | _, [] => []
  | pending + 1, _ :: bs => decodeFrom pending bs
  | 0, b :: bs =>
    match first? (b :: bs) with
    | some c => c :: decodeFrom (c.utf8Size - 1) bs
    | none => []

/-- The longest text whose encoding the bytes begin with. -/
def validPrefix (bytes : List UInt8) : List Char := decodeFrom 0 bytes

/-- Bytes that are no text: how many of them are one, up to the first that begins no character. -/
structure Invalid where
  validUpTo : Nat
deriving DecidableEq

/-- The text that some bytes are, or how far they are one. -/
def parse (bytes : List UInt8) : Except Invalid (List Char) :=
  let text := validPrefix bytes
  if size text = bytes.length then .ok text else .error ⟨size text⟩

/-- The text of some bytes, if all of them are the encoding of one. -/
def decode? (bytes : List UInt8) : Option String := String.fromUTF8? bytes.toByteArray

/-- Whether a byte goes on with a character that an earlier byte began. -/
def continues (b : UInt8) : Bool := 0x80 ≤ b && b < 0xc0

/-- Whether a character begins, or the text ends, at an offset. -/
def isBoundary (bytes : List UInt8) (offset : Nat) : Bool :=
  match bytes[offset]? with
  | some b => offset == 0 || !continues b
  | none => offset == bytes.length

/-- The last boundary at or before an offset, found by stepping back one byte at a time. -/
def alignDown (bytes : List UInt8) : Nat → Nat
  | 0 => 0
  | offset + 1 => if isBoundary bytes (offset + 1) then offset + 1 else alignDown bytes offset

/-- The bytes of as much of a text as fits `max` bytes without splitting a character. -/
def cut (max : Nat) (text : List Char) : List UInt8 :=
  let bytes := encode text
  bytes.take (alignDown bytes (min bytes.length max))

@[simp] theorem encode_nil : encode [] = [] := rfl

theorem encode_cons (c : Char) (text : List Char) :
    encode (c :: text) = String.utf8EncodeChar c ++ encode text := rfl

@[simp] theorem encode_append (text text' : List Char) :
    encode (text ++ text') = encode text ++ encode text' := List.flatMap_append

/-- The size of a text is the number of its bytes. -/
theorem length_encode (text : List Char) : (encode text).length = size text := by
  induction text with
  | nil => rfl
  | cons c text ih => simp [encode_cons, size, String.length_utf8EncodeChar, ih]

@[simp] theorem decode?_encode (text : String) : decode? (encode text.toList) = some text := by
  have hbytes : (encode text.toList).toByteArray = text.toByteArray := String.utf8Encode_toList
  rw [decode?, hbytes, String.fromUTF8?, dif_pos text.isValidUTF8]
  rfl

/-- Bytes that belong to the last character are passed over. -/
theorem decodeFrom_eq (pending : Nat) (bytes : List UInt8) :
    decodeFrom pending bytes = validPrefix (bytes.drop pending) := by
  induction bytes generalizing pending with
  | nil => simp [decodeFrom, validPrefix]
  | cons b bs ih =>
    cases pending with
    | zero => rfl
    | succ pending => rw [decodeFrom, ih, List.drop_succ_cons]

theorem alignDown_le (bytes : List UInt8) (offset : Nat) : alignDown bytes offset ≤ offset := by
  induction offset with
  | zero => exact Nat.le_refl 0
  | succ offset ih =>
    rw [alignDown]
    split
    · exact Nat.le_refl _
    · omega

end Firmware.Text.Utf8
