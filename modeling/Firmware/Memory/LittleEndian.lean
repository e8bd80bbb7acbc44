/-!
# Little-endian numbers

A number laid out in bytes, the least significant first.

* `value_bytes`: the bytes of `n` read back as `n` modulo `limit count`.
* `bytes_value`: any bytes are the bytes of the number they stand for.
* `value_lt`: `count` bytes stand for a number below `limit count`.
-/

namespace Firmware.Memory.LittleEndian

/-- The `count` low bytes of a number, the least significant first. -/
def bytes : (count number : Nat) → List UInt8
  | 0, _ => []
  | count + 1, number => UInt8.ofNat number :: bytes count (number / 256)

/-- The number that some bytes stand for, the least significant first. -/
def value : List UInt8 → Nat
  | [] => 0
  | b :: bs => b.toNat + 256 * value bs

/-- The first number that takes more than `count` bytes. -/
def limit : (count : Nat) → Nat
  | 0 => 1
  | count + 1 => 256 * limit count

@[simp] theorem length_bytes (count number : Nat) : (bytes count number).length = count := by
  induction count generalizing number with
  | zero => rfl
  | succ count ih => simp [bytes, ih]

/-- Bytes stand for a number that fits as many bytes. -/
theorem value_lt (bs : List UInt8) : value bs < limit bs.length := by
  induction bs with
  | nil => exact Nat.one_pos
  | cons b bs ih =>
    have hb := b.toNat_lt
    simp only [value, List.length_cons, limit]
    omega

/-- Numbers are read back from their bytes, up to what does not fit. -/
theorem value_bytes (count number : Nat) : value (bytes count number) = number % limit count := by
  induction count generalizing number with
  | zero => exact (Nat.mod_one number).symm
  | succ count ih =>
    rw [bytes, value, ih, limit, Nat.mod_mul]
    simp

/-- Bytes are those of their number. Together with `value_bytes`: a number of `count` bytes and
`count` bytes are the same thing. -/
theorem bytes_value (bs : List UInt8) : bytes bs.length (value bs) = bs := by
  induction bs with
  | nil => rfl
  | cons b bs ih =>
    have hb := b.toNat_lt
    have hdiv : (b.toNat + 256 * value bs) / 256 = value bs := by omega
    rw [List.length_cons, bytes, value, hdiv, ih]
    congr 1
    apply UInt8.toNat_inj.mp
    simp

/-- The four bytes of a word. -/
def ofWord (word : UInt32) : List UInt8 := bytes 4 word.toNat

/-- The word that four bytes stand for. -/
def toWord (bs : List UInt8) : UInt32 := UInt32.ofNat (value bs)

@[simp] theorem length_ofWord (word : UInt32) : (ofWord word).length = 4 := length_bytes 4 _

@[simp] theorem toWord_ofWord (word : UInt32) : toWord (ofWord word) = word := by
  have hw : word.toNat < limit 4 := word.toNat_lt
  rw [toWord, ofWord, value_bytes, Nat.mod_eq_of_lt hw]
  exact UInt32.ofNat_toNat

theorem ofWord_toWord {bs : List UInt8} (h : bs.length = 4) : ofWord (toWord bs) = bs := by
  have hlt : value bs < UInt32.size := by
    have hvalue := value_lt bs
    rw [h] at hvalue
    exact hvalue
  rw [toWord, ofWord, UInt32.toNat_ofNat', Nat.mod_eq_of_lt hlt, ← h]
  exact bytes_value bs

end Firmware.Memory.LittleEndian
