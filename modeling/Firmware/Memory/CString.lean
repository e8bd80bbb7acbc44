/-!
# Terminated strings in memory

A string handed over by address ends at its first zero byte, or at a limit that its reader sets.
Memory is partial: reading an offset at which nothing may be read is an error of its own, so a
reader that succeeds has stayed within what it may read.
-/

namespace Firmware.Memory.CString

/-- Memory from some address on: the byte at each offset, and `none` where nothing may be read. -/
abbrev Contents := Nat → Option UInt8

/-- The offset at which a read was refused. -/
structure Refused where
  offset : Nat
deriving DecidableEq

/-- Memory that holds exactly the given bytes. -/
def Contents.ofBytes (bytes : List UInt8) : Contents := fun offset => bytes[offset]?

/-- The bytes before the first zero, and at most `max` of them. -/
def untilZero (max : Nat) (bytes : List UInt8) : List UInt8 :=
  (bytes.take max).takeWhile (· ≠ 0)

/-- Reads from an offset on until a zero byte is seen or `max` bytes have been read. -/
def readFrom (memory : Contents) : (max offset : Nat) → Except Refused (List UInt8)
  | 0, _ => .ok []
  | max + 1, offset =>
    match memory offset with
    | none => .error ⟨offset⟩
    | some b => if b = 0 then .ok [] else (b :: ·) <$> readFrom memory max (offset + 1)

/-- The string at an address, at most `max` bytes of it; no address gives the empty string. -/
def read (address : Option Contents) (max : Nat) : Except Refused (List UInt8) :=
  match address with
  | none => .ok []
  | some memory => readFrom memory max 0

end Firmware.Memory.CString
