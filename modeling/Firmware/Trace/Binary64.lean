/-!
# Floating-point payloads

Double-precision numbers as the ring holds them: the bits are kept as they are, and two numbers are
compared by value.

* `beq_nan`: what is not a number equals nothing, itself included.
* `beq_self`: any other number equals itself.
-/

namespace Firmware.Trace

/-- The bits of a double-precision number. -/
structure Binary64 where
  bits : UInt64
deriving DecidableEq

namespace Binary64

/-- The bits without the sign. -/
def magnitude (x : Binary64) : Nat := x.bits.toNat % 0x8000000000000000

/-- Whether the bits stand for no number: all exponent bits are set and the fraction is not zero. -/
def isNan (x : Binary64) : Bool := 0x7ff0000000000000 < x.magnitude

/-- Numbers are compared by value, so the two zeros are equal and what is no number equals
nothing. -/
instance : BEq Binary64 where
  beq x y := !x.isNan && !y.isNan && (x.bits == y.bits || x.magnitude == 0 && y.magnitude == 0)

theorem beq_nan {x : Binary64} (h : x.isNan) (y : Binary64) : (x == y) = false := by
  show (!x.isNan && _ && _) = false
  rw [h]
  rfl

/-- Any number equals itself. -/
theorem beq_self {x : Binary64} (h : x.isNan = false) : (x == x) = true := by
  show (!x.isNan && !x.isNan && (x.bits == x.bits || _)) = true
  simp [h]

end Binary64

end Firmware.Trace
