import Mathlib.Data.List.TakeWhile
import Firmware.Proofs.Memory.Overlay
import Firmware.Text.Bounded

/-!
# Names in memory

A name is what stands before the first zero byte of its buffer. The ways to build one all leave a
terminator in the last byte, but only some of them leave zeros after the first terminator.

* `length_bytes_le`: a text that was built in one of these ways is terminated.
* `bytes_ofTerminated`, `bytes_ofRaw`: what the text of a buffer is, by the way it was built.
* `ofTerminated_bytes`: building a text again from its bytes puts zeros after its terminator.
* `cleared_eq_self_iff`: that changes nothing exactly if only zeros were there.
-/

namespace Firmware.Memory

/-- A list goes on to its end, in the form in which `takeWhile` asks it, if it does not hold the
element that would stop it. -/
theorem forall_decide_ne_iff {α : Type} [DecidableEq α] {a : α} {elements : List α} :
    (∀ x ∈ elements, decide (x ≠ a) = true) ↔ a ∉ elements := by
  constructor
  · intro hall hmem
    simpa using hall a hmem
  · intro hnot x hx
    have hne : x ≠ a := fun heq => hnot (heq ▸ hx)
    simpa using hne

/-- What stands before the first zero, by the place of that. -/
theorem takeWhile_eq_take_findIdx (bytes : List UInt8) :
    bytes.takeWhile (· ≠ 0) = bytes.take (bytes.findIdx (· == 0)) := by
  have hstop : (fun b : UInt8 => !decide (b ≠ 0)) = (· == 0) := by
    funext b
    rw [decide_not, Bool.not_not, beq_eq_decide]
  rw [List.takeWhile_eq_take_findIdx_not, hstop]

namespace CString

theorem length_untilZero_le (max : Nat) (bytes : List UInt8) : (untilZero max bytes).length ≤ max := by
  have hle := (List.takeWhile_prefix (l := bytes.take max) (· ≠ 0)).length_le
  rw [List.length_take] at hle
  exact Nat.le_trans hle (Nat.min_le_left _ _)

theorem zero_notMem_untilZero (max : Nat) (bytes : List UInt8) : 0 ∉ untilZero max bytes := by
  intro hzero
  have hkept := List.mem_takeWhile_imp hzero
  simp at hkept

theorem untilZero_eq_self {max : Nat} {bytes : List UInt8} (hlen : bytes.length ≤ max)
    (hzero : 0 ∉ bytes) : untilZero max bytes = bytes := by
  rw [untilZero, List.take_of_length_le hlen, List.takeWhile_eq_self_iff]
  exact forall_decide_ne_iff.2 hzero

theorem untilZero_untilZero (max : Nat) (bytes : List UInt8) :
    untilZero max (untilZero max bytes) = untilZero max bytes :=
  untilZero_eq_self (length_untilZero_le max bytes) (zero_notMem_untilZero max bytes)

/-- A byte belongs to a string if it is within the limit and no zero stands before it or at it. -/
theorem getElem?_untilZero (max : Nat) (bytes : List UInt8) (i : Nat) :
    (untilZero max bytes)[i]? =
      if i < max ∧ 0 ∉ bytes.take (i + 1) then bytes[i]? else none := by
  induction bytes generalizing max i with
  | nil => simp [untilZero]
  | cons b bytes ih =>
    cases max with
    | zero => simp [untilZero]
    | succ max =>
      simp only [untilZero] at ih ⊢
      rw [List.take_succ_cons, List.takeWhile_cons, List.take_succ_cons]
      by_cases hb : b = 0
      · subst hb
        simp
      have hkept : decide (b ≠ 0) = true := by simpa using hb
      have hfirst : (0 = b) ↔ False := iff_false_intro fun h => hb h.symm
      simp only [if_pos hkept, List.mem_cons, hfirst, false_or]
      cases i with
      | zero => simp
      | succ i =>
        rw [List.getElem?_cons_succ, List.getElem?_cons_succ, ih]
        simp only [Nat.add_lt_add_iff_right]

end CString

theorem takeWhile_zeroFilled {bytes : List UInt8} (h : 0 ∉ bytes) (width : Nat) :
    (zeroFilled width bytes).takeWhile (· ≠ 0) = bytes := by
  have hkept := forall_decide_ne_iff.2 h
  rw [zeroFilled, List.takeWhile_append_of_pos hkept, List.takeWhile_replicate]
  simp

end Firmware.Memory

namespace Firmware.Text.Bounded

open Memory

variable {capacity : Nat}

/-- The ways in which a text gets into a buffer. -/
inductive Built : Bounded capacity → Prop
  | empty : Built empty
  | ofText (text : List Char) : Built (ofText text)
  | ofTerminated (bytes : List UInt8) : Built (ofTerminated bytes)
  | ofRaw (raw : Block (capacity + 1)) : Built (ofRaw raw)

/-- The text with a zero in place of each byte from its terminator on. -/
def cleared (text : Bounded capacity) : Bounded capacity where
  buffer := {
    toList := text.bytes ++ (text.buffer.toList.dropWhile (· ≠ 0)).map fun _ => 0
    length_toList := by
      rw [bytes, List.length_append, List.length_map, ← List.length_append,
        List.takeWhile_append_dropWhile, text.buffer.length_toList] }

/-- Only zeros follow the text. -/
def ZeroTailed (text : Bounded capacity) : Prop :=
  ∀ b ∈ text.buffer.toList.dropWhile (· ≠ 0), b = 0

instance (text : Bounded capacity) : Decidable text.ZeroTailed :=
  inferInstanceAs (Decidable (∀ b ∈ _, b = 0))

theorem ext_toList {text text' : Bounded capacity}
    (h : text.buffer.toList = text'.buffer.toList) : text = text' := by
  cases text
  cases text'
  exact congrArg Bounded.mk (Block.ext h)

theorem toList_cleared (text : Bounded capacity) :
    text.cleared.buffer.toList =
      text.bytes ++ List.replicate (text.buffer.toList.dropWhile (· ≠ 0)).length 0 :=
  congrArg (text.bytes ++ ·) List.map_const'

theorem toList_ofTerminated (name : List UInt8) :
    (ofTerminated name : Bounded capacity).buffer.toList =
      zeroFilled (capacity + 1) (CString.untilZero capacity name) := by
  have hle := CString.length_untilZero_le capacity name
  exact Block.toList_fit_zero (by omega)

theorem bytes_ofTerminated (name : List UInt8) :
    (ofTerminated name : Bounded capacity).bytes = CString.untilZero capacity name := by
  rw [bytes, toList_ofTerminated]
  exact takeWhile_zeroFilled (CString.zero_notMem_untilZero _ _) _

theorem bytes_ofRaw (raw : Block (capacity + 1)) :
    (ofRaw raw).bytes = CString.untilZero capacity raw.toList := by
  have hfront := List.takeWhile_prefix (l := raw.toList.take capacity) (· ≠ 0)
  rw [bytes, toList_ofRaw, List.takeWhile_append, CString.untilZero]
  split
  -- no zero before the last byte
  next hall => rw [hfront.eq_of_length hall, List.takeWhile_cons_of_neg (by simp), List.append_nil]
  next => rfl

theorem ofTerminated_untilZero (name : List UInt8) :
    (ofTerminated (CString.untilZero capacity name) : Bounded capacity) = ofTerminated name := by
  rw [ofTerminated, CString.untilZero_untilZero]
  rfl

theorem zero_notMem_bytes (text : Bounded capacity) : 0 ∉ text.bytes := by
  intro hzero
  have hkept := List.mem_takeWhile_imp hzero
  simp at hkept

/-- **Every text that was built is terminated.** -/
theorem length_bytes_le {text : Bounded capacity} (h : text.Built) :
    text.bytes.length ≤ capacity := by
  cases h with
  | empty => simp [bytes, Bounded.empty, Block.zero]
  | ofText text =>
    rw [ofText, bytes_ofTerminated]
    exact CString.length_untilZero_le _ _
  | ofTerminated name =>
    rw [bytes_ofTerminated]
    exact CString.length_untilZero_le _ _
  | ofRaw raw =>
    rw [bytes_ofRaw]
    exact CString.length_untilZero_le _ _

/-- **Building a text again from its bytes clears what follows its terminator**, and no more. -/
theorem ofTerminated_bytes {text : Bounded capacity} (h : text.Built) :
    ofTerminated text.bytes = text.cleared := by
  have hname := CString.untilZero_eq_self (length_bytes_le h) (zero_notMem_bytes text)
  have htail : (text.buffer.toList.dropWhile (· ≠ 0)).length = capacity + 1 - text.bytes.length := by
    have hsum := congrArg List.length
      (List.takeWhile_append_dropWhile (p := (· ≠ (0 : UInt8))) (l := text.buffer.toList))
    rw [List.length_append, text.buffer.length_toList] at hsum
    rw [bytes]
    omega
  apply ext_toList
  rw [toList_ofTerminated, hname, zeroFilled, toList_cleared, htail]

theorem bytes_cleared {text : Bounded capacity} (h : text.Built) :
    text.cleared.bytes = text.bytes := by
  rw [← ofTerminated_bytes h, bytes_ofTerminated]
  exact CString.untilZero_eq_self (length_bytes_le h) (zero_notMem_bytes text)

theorem cleared_eq_self_iff (text : Bounded capacity) : text.cleared = text ↔ text.ZeroTailed := by
  have hsplit := List.takeWhile_append_dropWhile (p := (· ≠ (0 : UInt8))) (l := text.buffer.toList)
  constructor
  · intro hself b hb
    have htoList := (toList_cleared text).symm.trans (congrArg (fun t => t.buffer.toList) hself)
    have htail := List.append_cancel_left (htoList.trans hsplit.symm)
    exact List.eq_of_mem_replicate (htail ▸ hb)
  · intro hzeros
    have htail := List.eq_replicate_of_mem hzeros
    apply ext_toList
    rw [toList_cleared, ← htail, bytes, hsplit]

theorem cleared_ofTerminated (name : List UInt8) :
    (ofTerminated name : Bounded capacity).cleared = ofTerminated name := by
  rw [← ofTerminated_bytes (.ofTerminated name), bytes_ofTerminated, ofTerminated_untilZero]

end Firmware.Text.Bounded
