/-!
# Numbers as text

Decimal numbers without leading zeros, and hexadecimal words of a fixed width.

* `length_hexFixed`: a fixed-width number has exactly that many digits.
-/

namespace Firmware.Text.Numeral

/-- A number in decimal. -/
def decimal (n : Nat) : List Char := Nat.toDigits 10 n

/-- A number in decimal, as a string. -/
def decimalString (n : Nat) : String := String.ofList (decimal n)

/-- An integer in decimal, with a sign if it is negative. -/
def signedDecimal : Int → List Char
  | .ofNat n => decimal n
  | .negSucc n => '-' :: decimal (n + 1)

/-- A number in hexadecimal, in lower case and without leading zeros. -/
def hex (n : Nat) : List Char := Nat.toDigits 16 n

/-- The `width` low hexadecimal digits of a number, in lower case. -/
def hexFixed : (width n : Nat) → List Char
  | 0, _ => []
  | width + 1, n => hexFixed width (n / 16) ++ [Nat.digitChar (n % 16)]

/-- A word as eight hexadecimal digits. -/
def hexWord (word : UInt32) : List Char := hexFixed 8 word.toNat

@[simp] theorem length_hexFixed (width n : Nat) : (hexFixed width n).length = width := by
  induction width generalizing n with
  | zero => rfl
  | succ width ih => simp [hexFixed, ih]

end Firmware.Text.Numeral
