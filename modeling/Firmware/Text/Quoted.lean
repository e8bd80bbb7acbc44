import Firmware.Text.Numeral
import Firmware.Text.Printable

/-!
# Quoted text

A text between double quotes in which every character can be seen: the quote and the backslash are
escaped, the common controls have short escapes, and what cannot be shown is written by its number.

* `quote_eq`: a text of plain characters is only put between quotes.
-/

namespace Firmware.Text.Quoted

/-- The escape of a character by its number in hexadecimal, between braces. -/
def numbered (c : Char) : List Char :=
  ['\\', 'u', '\x7b'] ++ Numeral.hex c.toNat ++ ['\x7d']

/-- A character as it stands in a quoted text. -/
def escape (c : Char) : List Char :=
  if c = '"' then ['\\', '"']
  else if c = '\\' then ['\\', '\\']
  else if c = '\n' then ['\\', 'n']
  else if c = '\r' then ['\\', 'r']
  else if c = '\t' then ['\\', 't']
  else if c = '\x00' then ['\\', '0']
  else if Printable.isShown c then [c]
  else numbered c

/-- A text between quotes. -/
def quote (text : List Char) : List Char := '"' :: text.flatMap escape ++ ['"']

theorem escape_eq_self {c : Char} (hquote : c ≠ '"') (hslash : c ≠ '\\')
    (hshown : Printable.isShown c) : escape c = [c] := by
  -- a character that is shown is none of the controls with an escape of their own
  have hcontrol : ∀ d, Printable.isShown d = false → c ≠ d := by
    rintro d hd rfl
    simp [hd] at hshown
  simp only [escape, hquote, hslash, hshown, if_true, if_false]
  rw [if_neg (hcontrol '\n' (by decide +kernel)), if_neg (hcontrol '\r' (by decide +kernel)),
    if_neg (hcontrol '\t' (by decide +kernel)), if_neg (hcontrol '\x00' (by decide +kernel))]

/-- Plain text stays readable: it is only put between quotes. -/
theorem quote_eq {text : List Char}
    (h : ∀ c ∈ text, c ≠ '"' ∧ c ≠ '\\' ∧ Printable.isShown c) :
    quote text = '"' :: text ++ ['"'] := by
  have hflat : text.flatMap escape = text := by
    induction text with
    | nil => rfl
    | cons c text ih =>
      obtain ⟨hquote, hslash, hshown⟩ := h c (by simp)
      rw [List.flatMap_cons, escape_eq_self hquote hslash hshown, ih fun d hd => h d (by simp [hd])]
      rfl
  rw [quote, hflat]

end Firmware.Text.Quoted
