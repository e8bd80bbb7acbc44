import Mathlib.Algebra.Ring.Nat
import Firmware.Text.Clipped
import Firmware.Text.Numeral

/-!
# What numbers look like

* `decimal_injective`, `signedDecimal_injective`, `hexWord_injective`: different numbers look
  different.
* `append_digits_injective`: a number at the end of a text can be told from what stands before it.
* `size_decimal_le`, `size_hexWord`: how much space a number takes.
-/

namespace Firmware.Text

/-- Characters of one byte each. -/
theorem Utf8.size_eq_length {text : List Char} (h : ∀ c ∈ text, c.utf8Size = 1) :
    Utf8.size text = text.length := by
  induction text with
  | nil => rfl
  | cons c text ih =>
    rw [size, h c List.mem_cons_self, ih fun d hd => h d (List.mem_cons_of_mem c hd),
      List.length_cons, Nat.add_comm]

namespace Numeral

/-! ## Decimal numbers -/

theorem decimal_injective : Function.Injective decimal := by
  intro n m h
  have hvalue := congrArg (fun digits => Nat.ofDigitChars 10 digits 0) h
  simpa only [decimal, Nat.ofDigitChars_ten_toDigits] using hvalue

theorem isDigit_of_mem_decimal {n : Nat} {c : Char} (h : c ∈ decimal n) : c.isDigit = true :=
  Nat.isDigit_of_mem_toDigits (by decide) (by decide) h

theorem signedDecimal_injective : Function.Injective signedDecimal := by
  -- the sign is no digit
  have hsign : ∀ n m : Nat, decimal n ≠ '-' :: decimal m := by
    intro n m h
    have hdigit := isDigit_of_mem_decimal (n := n) (c := '-') (by rw [h]; exact List.mem_cons_self)
    exact absurd hdigit (by decide)
  intro n m h
  cases n with
  | ofNat n =>
    cases m with
    | ofNat m => rw [decimal_injective h]
    | negSucc m => exact absurd h (hsign n (m + 1))
  | negSucc n =>
    cases m with
    | ofNat m => exact absurd h.symm (hsign m (n + 1))
    | negSucc m =>
      have hn := decimal_injective (List.cons.inj h).2
      rw [Nat.succ.inj hn]

/-- **A number at the end of a text can be told from what stands before it**, whatever that is, if the
character between them is no digit. -/
theorem append_digits_injective {text text' digits digits' : List Char} {c : Char}
    (hc : c.isDigit = false) (hdigits : ∀ d ∈ digits, d.isDigit = true)
    (hdigits' : ∀ d ∈ digits', d.isDigit = true)
    (h : text ++ c :: digits = text' ++ c :: digits') : text = text' ∧ digits = digits' := by
  -- read from the end, the number goes on up to the first character that is no digit
  have hread : ∀ text digits : List Char, (∀ d ∈ digits, d.isDigit = true) →
      (text ++ c :: digits).reverse.takeWhile Char.isDigit = digits.reverse := by
    intro text digits hall
    have hreverse : ∀ d ∈ digits.reverse, d.isDigit = true :=
      fun d hd => hall d (List.mem_reverse.1 hd)
    rw [List.reverse_append, List.reverse_cons, List.append_assoc,
      List.takeWhile_append_of_pos hreverse, List.singleton_append,
      List.takeWhile_cons_of_neg (by simp [hc]), List.append_nil]
  have hsame : digits.reverse = digits'.reverse := by
    rw [← hread text digits hdigits, ← hread text' digits' hdigits', h]
  obtain rfl := List.reverse_inj.1 hsame
  exact ⟨List.append_cancel_right h, rfl⟩

theorem size_decimal_le {n count : Nat} (hcount : 0 < count) (h : n < 10 ^ count) :
    Utf8.size (decimal n) ≤ count := by
  have hsize : ∀ c ∈ decimal n, c.utf8Size = 1 := by
    intro c hc
    have hdigit := isDigit_of_mem_decimal hc
    simp only [Char.isDigit, Bool.and_eq_true, decide_eq_true_eq] at hdigit
    exact Char.utf8Size_eq_one_iff.2 (UInt32.le_trans hdigit.2 (by decide))
  rw [Utf8.size_eq_length hsize]
  exact (Nat.length_toDigits_le_iff (by decide) hcount).2 h

theorem size_signedDecimal_le {n : Int} {count : Nat} (hcount : 0 < count)
    (h : n.natAbs < 10 ^ count) : Utf8.size (signedDecimal n) ≤ count + 1 := by
  cases n with
  | ofNat n => exact Nat.le_succ_of_le (size_decimal_le hcount h)
  | negSucc n =>
    have hsize := size_decimal_le (n := n + 1) hcount h
    rw [signedDecimal, ← List.singleton_append, Clipped.size_append, Nat.add_comm]
    exact Nat.add_le_add_right hsize 1

/-! ## Hexadecimal words -/

theorem hexFixed_injective {width n m : Nat} (hn : n < 16 ^ width) (hm : m < 16 ^ width)
    (h : hexFixed width n = hexFixed width m) : n = m := by
  have hdigit : ∀ a < 16, ∀ b < 16, Nat.digitChar a = Nat.digitChar b → a = b := by decide
  induction width generalizing n m with
  | zero => omega
  | succ width ih =>
    rw [Nat.pow_succ] at hn hm
    obtain ⟨hfront, hlast⟩ := List.append_inj' h rfl
    have hquot := ih (n := n / 16) (m := m / 16) (by omega) (by omega) hfront
    have hrem := hdigit _ (Nat.mod_lt n (by decide)) _ (Nat.mod_lt m (by decide))
      (List.cons.inj hlast).1
    omega

theorem hexWord_injective : Function.Injective hexWord := by
  intro word word' h
  have hlt := word.toNat_lt
  have hlt' := word'.toNat_lt
  exact UInt32.toNat_inj.1 (hexFixed_injective (by omega) (by omega) h)

theorem length_hexWord (word : UInt32) : (hexWord word).length = 8 := length_hexFixed 8 _

theorem size_hexWord (word : UInt32) : Utf8.size (hexWord word) = 8 := by
  have hdigit : ∀ a < 16, (Nat.digitChar a).utf8Size = 1 := by decide
  have hsize : ∀ width n : Nat, ∀ c ∈ hexFixed width n, c.utf8Size = 1 := by
    intro width
    induction width with
    | zero => intro n c hc; cases hc
    | succ width ih =>
      intro n c hc
      rcases List.mem_append.1 hc with hfront | hlast
      · exact ih (n / 16) c hfront
      · rw [List.mem_singleton.1 hlast]
        exact hdigit _ (Nat.mod_lt n (by decide))
  rw [hexWord, Utf8.size_eq_length (hsize 8 word.toNat), length_hexFixed]

end Numeral

end Firmware.Text
