import Firmware.Memory.LittleEndian

/-!
# Blocks of bytes

Memory of a fixed size. A write past the end is cut off there, so a block never changes its size.

* `getElem?_write`: a write changes exactly the bytes it covers.
* `toList_fit`: a byte list that has the right length becomes the block as it is.
-/

namespace Firmware.Memory

/-- Exactly `size` bytes of memory. -/
structure Block (size : Nat) where
  /-- The bytes, by rising offset. -/
  toList : List UInt8
  length_toList : toList.length = size
deriving DecidableEq

namespace Block

variable {size : Nat}

@[ext] theorem ext {a b : Block size} (h : a.toList = b.toList) : a = b := by
  cases a; cases b; simp_all

/-- The first `size` bytes of a list, filled up with `pad` where the list is too short. -/
def fit (pad : UInt8) (bytes : List UInt8) : Block size where
  toList := (bytes ++ List.replicate size pad).take size
  length_toList := by simp

/-- A block that holds zeros only. -/
def zero : Block size := ⟨List.replicate size 0, List.length_replicate⟩

/-- Writes bytes from an offset on; what would fall past the end is dropped. -/
def write (offset : Nat) (bytes : List UInt8) (block : Block size) : Block size where
  toList := block.toList.mapIdx fun i old => if offset ≤ i then bytes.getD (i - offset) old else old
  length_toList := by simp [block.length_toList]

/-- At most `count` bytes from an offset on. -/
def slice (offset count : Nat) (block : Block size) : List UInt8 :=
  (block.toList.drop offset).take count

/-- The block of another size that lies at an offset; what reaches past the end reads as zero. -/
def window {count : Nat} (offset : Nat) (block : Block size) : Block count :=
  fit 0 (block.slice offset count)

/-- The word at an offset. -/
def word (offset : Nat) (block : Block size) : UInt32 :=
  LittleEndian.toWord (block.slice offset 4)

/-- A list of the right length becomes a block without loss. -/
theorem toList_fit (pad : UInt8) {bytes : List UInt8} (h : bytes.length = size) :
    (fit pad bytes : Block size).toList = bytes := by
  simp [fit, ← h]

theorem getElem?_write (offset : Nat) (bytes : List UInt8) (block : Block size) (i : Nat) :
    (block.write offset bytes).toList[i]? =
      if offset ≤ i ∧ i < offset + bytes.length ∧ i < size then bytes[i - offset]?
      else block.toList[i]? := by
  have hlen := block.length_toList
  simp only [write, List.getElem?_mapIdx, List.getD_eq_getElem?_getD]
  by_cases hi : i < size
  · obtain ⟨old, hold⟩ : ∃ old, block.toList[i]? = some old :=
      ⟨block.toList.get ⟨i, by omega⟩, List.getElem?_eq_getElem (by omega)⟩
    rw [hold, Option.map_some]
    by_cases ho : offset ≤ i
    -- `i` is covered, or lies after the bytes written
    · by_cases hb : i - offset < bytes.length
      · rw [if_pos ho, if_pos ⟨ho, by omega, hi⟩, List.getElem?_eq_getElem hb, Option.getD_some]
      · rw [if_pos ho, if_neg (by omega), List.getElem?_eq_none (by omega), Option.getD_none]
    · rw [if_neg ho, if_neg (by omega)]
  · have hnone : block.toList[i]? = none := List.getElem?_eq_none (by omega)
    rw [if_neg (by omega), hnone, Option.map_none]

theorem length_slice (offset count : Nat) (block : Block size) :
    (block.slice offset count).length = min count (size - offset) := by
  simp [slice, block.length_toList]

end Block

end Firmware.Memory
