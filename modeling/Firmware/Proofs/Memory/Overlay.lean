import Firmware.Memory.Block

/-!
# Reading back what was written

* `slice_write_within`: what was written is read back, each part of it as that part.
* `slice_write_of_disjoint`: elsewhere the block reads as before.
* `word_write_words`: of several words written one after another each is read back.
* `getElem?_foldl_write`: of several writes that cover a byte the last one counts.
* `zero_write`, `fit_write`: on zeros, what was written stands in the block with zeros around it.
* `flatMap_word`: words that are read one after another have the bytes they were read from.
-/

namespace Firmware.Memory

namespace LittleEndian

@[simp] theorem ofWord_zero : ofWord 0 = [0, 0, 0, 0] := rfl

/-- Each of several words is found at its place. -/
theorem slice_flatMap_ofWord (words : List UInt32) {i : Nat} {word : UInt32}
    (h : words[i]? = some word) :
    ((words.flatMap ofWord).drop (4 * i)).take 4 = ofWord word := by
  induction words generalizing i with
  | nil => simp at h
  | cons first words ih =>
    rw [List.flatMap_cons]
    cases i with
    | zero =>
      have hfirst : first = word := by simpa using h
      rw [Nat.mul_zero, List.drop_zero, List.take_left' (length_ofWord first), hfirst]
    | succ i =>
      rw [show 4 * (i + 1) = (ofWord first).length + 4 * i by rw [length_ofWord]; omega,
        List.drop_append, List.drop_eq_nil_of_le (by omega), List.nil_append,
        Nat.add_sub_cancel_left]
      exact ih (by simpa using h)

theorem length_flatMap_ofWord (words : List UInt32) :
    (words.flatMap ofWord).length = 4 * words.length := by
  induction words with
  | nil => rfl
  | cons first words ih =>
    rw [List.flatMap_cons, List.length_append, ih, length_ofWord, List.length_cons]
    omega

end LittleEndian

/-- Bytes with zeros after them, up to a width. -/
def zeroFilled (width : Nat) (bytes : List UInt8) : List UInt8 :=
  bytes ++ List.replicate (width - bytes.length) 0

theorem length_zeroFilled {width : Nat} {bytes : List UInt8} (h : bytes.length ≤ width) :
    (zeroFilled width bytes).length = width := by
  rw [zeroFilled, List.length_append, List.length_replicate]
  omega

theorem getElem?_zeroFilled {width : Nat} {bytes : List UInt8} (h : bytes.length ≤ width) (i : Nat) :
    (zeroFilled width bytes)[i]? = if i < width then some (bytes[i]?.getD 0) else none := by
  rw [zeroFilled]
  by_cases hi : i < bytes.length
  · rw [List.getElem?_append_left hi, List.getElem?_eq_getElem hi, if_pos (by omega),
      Option.getD_some]
  · rw [List.getElem?_append_right (by omega), List.getElem?_replicate,
      List.getElem?_eq_none (by omega), Option.getD_none]
    by_cases hw : i < width
    · rw [if_pos (by omega), if_pos hw]
    · rw [if_neg (by omega), if_neg hw]

theorem take_zeroFilled {width : Nat} {bytes : List UInt8} (h : bytes.length ≤ width) :
    (zeroFilled (width + 1) bytes).take width ++ [0] = zeroFilled (width + 1) bytes := by
  have hzeros : width + 1 - bytes.length = (width - bytes.length) + 1 := by omega
  unfold zeroFilled
  rw [hzeros, List.replicate_succ', ← List.append_assoc, List.take_left']
  rw [List.length_append, List.length_replicate]
  omega

namespace Block

variable {size : Nat} {block : Block size} {offset offset' count : Nat} {bytes : List UInt8}

theorem getElem?_zero (i : Nat) :
    (zero : Block size).toList[i]? = if i < size then some 0 else none := by
  rw [zero, List.getElem?_replicate]

theorem getElem?_slice (i : Nat) :
    (block.slice offset count)[i]? = if i < count then block.toList[offset + i]? else none := by
  rw [slice, List.getElem?_take]
  split
  · rw [List.getElem?_drop]
  · rfl

theorem getElem?_fit (pad : UInt8) (i : Nat) :
    (fit pad bytes : Block size).toList[i]? =
      if i < size then some (bytes[i]?.getD pad) else none := by
  rw [fit, List.getElem?_take]
  split
  next hi =>
    by_cases hb : i < bytes.length
    · rw [List.getElem?_append_left hb, List.getElem?_eq_getElem hb, Option.getD_some]
    · rw [List.getElem?_append_right (by omega), List.getElem?_replicate, if_pos (by omega),
        List.getElem?_eq_none (by omega), Option.getD_none]
  next => rfl

/-- A window reads the block it lies in. -/
theorem getElem?_window (h : offset + count ≤ size) (i : Nat) :
    (block.window offset : Block count).toList[i]? =
      if i < count then block.toList[offset + i]? else none := by
  have hlen : (block.slice offset count).length = count := by rw [length_slice]; omega
  rw [window, toList_fit 0 hlen, getElem?_slice]

/-- **What was written is read back**, each part of it as that part. -/
theorem slice_write_within {i : Nat} (h : offset + bytes.length ≤ size)
    (hi : i + count ≤ bytes.length) :
    (block.write offset bytes).slice (offset + i) count = (bytes.drop i).take count := by
  apply List.ext_getElem?
  intro j
  rw [getElem?_slice, List.getElem?_take]
  split
  next hj =>
    rw [getElem?_write, if_pos (by omega), List.getElem?_drop]
    congr 1
    omega
  next => rfl

theorem slice_write (h : offset + bytes.length ≤ size) :
    (block.write offset bytes).slice offset bytes.length = bytes := by
  have hslice : (block.write offset bytes).slice (offset + 0) bytes.length = _ :=
    slice_write_within h (Nat.le_of_eq (Nat.zero_add _))
  rwa [Nat.add_zero, List.drop_zero, List.take_length] at hslice

/-- **Elsewhere the block reads as before.** -/
theorem slice_write_of_disjoint
    (h : offset' + count ≤ offset ∨ offset + bytes.length ≤ offset') :
    (block.write offset bytes).slice offset' count = block.slice offset' count := by
  apply List.ext_getElem?
  intro i
  rw [getElem?_slice, getElem?_slice]
  split
  next hi => rw [getElem?_write, if_neg (by omega)]
  next => rfl

theorem window_write_of_disjoint
    (h : offset' + count ≤ offset ∨ offset + bytes.length ≤ offset') :
    ((block.write offset bytes).window offset' : Block count) = block.window offset' := by
  rw [window, window, slice_write_of_disjoint h]

theorem word_write (word : UInt32) (h : offset + 4 ≤ size) :
    (block.write offset (LittleEndian.ofWord word)).word offset = word := by
  have hslice : (block.write offset (LittleEndian.ofWord word)).slice offset _ = _ :=
    slice_write (by rwa [LittleEndian.length_ofWord])
  rw [LittleEndian.length_ofWord] at hslice
  rw [Block.word, hslice, LittleEndian.toWord_ofWord]

theorem word_write_of_disjoint (h : offset' + 4 ≤ offset ∨ offset + bytes.length ≤ offset') :
    (block.write offset bytes).word offset' = block.word offset' := by
  rw [Block.word, Block.word, slice_write_of_disjoint h]

/-- **Of several words written one after another each is read back.** -/
theorem word_write_words (words : List UInt32) (h : 4 * words.length ≤ size) {i : Nat}
    {word : UInt32} (hi : words[i]? = some word) :
    (block.write 0 (words.flatMap LittleEndian.ofWord)).word (4 * i) = word := by
  have hlt := (List.getElem?_eq_some_iff.1 hi).1
  have hlen := LittleEndian.length_flatMap_ofWord words
  have hslice : (block.write 0 (words.flatMap LittleEndian.ofWord)).slice (0 + 4 * i) 4 = _ :=
    slice_write_within (by omega) (by omega)
  rw [Nat.zero_add] at hslice
  rw [Block.word, hslice, LittleEndian.slice_flatMap_ofWord words hi, LittleEndian.toWord_ofWord]

/-! ## Writing again -/

theorem write_nil (offset : Nat) (block : Block size) : block.write offset [] = block := by
  apply ext
  apply List.ext_getElem?
  intro i
  rw [getElem?_write, List.length_nil, if_neg (by omega)]

theorem write_append (offset : Nat) (bytes more : List UInt8) (block : Block size) :
    block.write offset (bytes ++ more) =
      (block.write offset bytes).write (offset + bytes.length) more := by
  apply ext
  apply List.ext_getElem?
  intro i
  rw [getElem?_write, getElem?_write, getElem?_write, List.length_append]
  by_cases hmore : offset + bytes.length ≤ i
  · rw [if_neg (show ¬ (offset ≤ i ∧ i < offset + bytes.length ∧ i < size) by omega),
      List.getElem?_append_right (by omega), Nat.sub_add_eq]
    congr 1
    simp only [eq_iff_iff]
    omega
  · rw [if_neg (show ¬ (offset + bytes.length ≤ i ∧ _) by omega)]
    by_cases hbytes : offset ≤ i ∧ i < offset + bytes.length ∧ i < size
    · rw [if_pos hbytes, if_pos (by omega), List.getElem?_append_left (by omega)]
    · rw [if_neg hbytes, if_neg (by omega)]

/-- The byte that a part has for an offset, if it covers it. -/
def given (i : Nat) (part : Nat × List UInt8) : Option UInt8 :=
  if part.1 ≤ i then part.2[i - part.1]? else none

theorem getElem?_write_eq_or (part : Nat × List UInt8) (block : Block size) {i : Nat}
    (hi : i < size) :
    (block.write part.1 part.2).toList[i]? = (given i part).or block.toList[i]? := by
  rw [getElem?_write, given]
  by_cases hstart : part.1 ≤ i
  · rw [if_pos hstart]
    by_cases hend : i < part.1 + part.2.length
    · rw [if_pos ⟨hstart, hend, hi⟩, List.getElem?_eq_getElem (by omega), Option.some_or]
    · rw [if_neg (by omega), List.getElem?_eq_none (show part.2.length ≤ i - part.1 by omega),
        Option.none_or]
  · rw [if_neg hstart, if_neg (by omega), Option.none_or]

/-- **Of several writes that cover a byte the last one counts**, so they are looked through from the
last one on. -/
theorem getElem?_foldl_write (parts : List (Nat × List UInt8)) (block : Block size) {i : Nat}
    (hi : i < size) :
    (parts.foldl (fun block part => block.write part.1 part.2) block).toList[i]? =
      (parts.reverse.findSome? (given i)).or block.toList[i]? := by
  induction parts generalizing block with
  | nil => rfl
  | cons part parts ih =>
    rw [List.foldl_cons, ih, getElem?_write_eq_or part block hi, List.reverse_cons,
      List.findSome?_append, List.findSome?_singleton, Option.or_assoc]

/-! ## Writing on zeros -/

theorem toList_fit_zero (h : bytes.length ≤ size) :
    (fit 0 bytes : Block size).toList = zeroFilled size bytes := by
  apply List.ext_getElem?
  intro i
  rw [getElem?_fit, getElem?_zeroFilled h]

theorem zero_write (bytes : List UInt8) : (zero : Block size).write 0 bytes = fit 0 bytes := by
  apply ext
  apply List.ext_getElem?
  intro i
  rw [getElem?_write, getElem?_zero, getElem?_fit]
  by_cases hcovered : i < bytes.length ∧ i < size
  · rw [if_pos (by omega), if_pos hcovered.2, Nat.sub_zero, List.getElem?_eq_getElem hcovered.1,
      Option.getD_some]
  rw [if_neg (by omega)]
  by_cases hi : i < size
  · rw [if_pos hi, if_pos hi, List.getElem?_eq_none (by omega), Option.getD_none]
  · rw [if_neg hi, if_neg hi]

/-- A part that is stored after the first: zeros stand between them. -/
theorem fit_write (h : bytes.length ≤ offset) (part : List UInt8) :
    (fit 0 bytes : Block size).write offset part = fit 0 (zeroFilled offset bytes ++ part) := by
  have hlen := length_zeroFilled h
  apply ext
  apply List.ext_getElem?
  intro i
  rw [getElem?_write, getElem?_fit, getElem?_fit]
  by_cases hi : i < size
  · rw [if_pos hi, if_pos hi]
    by_cases hbefore : i < offset
    · rw [if_neg (by omega), List.getElem?_append_left (by omega), getElem?_zeroFilled h,
        if_pos hbefore, Option.getD_some]
    rw [List.getElem?_append_right (by omega), hlen]
    by_cases hpart : i - offset < part.length
    · rw [if_pos (by omega), List.getElem?_eq_getElem hpart, Option.getD_some]
    · rw [if_neg (by omega), List.getElem?_eq_none (by omega), List.getElem?_eq_none (by omega)]
  · rw [if_neg (by omega), if_neg hi, if_neg hi]

/-! ## Reading on -/

theorem ofWord_word (h : offset + 4 ≤ size) :
    LittleEndian.ofWord (block.word offset) = block.slice offset 4 := by
  have hlen : (block.slice offset 4).length = 4 := by
    rw [length_slice]
    omega
  rw [word, LittleEndian.ofWord_toWord hlen]

theorem flatMap_word (n : Nat) (h : 4 * n ≤ size) :
    (List.range n).flatMap (fun i => LittleEndian.ofWord (block.word (4 * i))) =
      block.toList.take (4 * n) := by
  induction n with
  | zero => simp
  | succ n ih =>
    have hword : LittleEndian.ofWord (block.word (4 * n)) = block.slice (4 * n) 4 :=
      ofWord_word (by omega)
    rw [List.range_succ, List.flatMap_append, ih (by omega), List.flatMap_singleton, hword, slice,
      Nat.mul_succ, List.take_add]

/-- What is read before some offset depends on the bytes before it only. -/
theorem slice_congr {other : Block size} {limit : Nat} (hlimit : offset + count ≤ limit)
    (h : block.toList.take limit = other.toList.take limit) :
    block.slice offset count = other.slice offset count := by
  have hslice : ∀ b : Block size,
      b.slice offset count = ((b.toList.take limit).drop offset).take count := by
    intro b
    rw [slice, List.drop_take, List.take_take, Nat.min_eq_left (by omega)]
  rw [hslice block, hslice other, h]

end Block

end Firmware.Memory
