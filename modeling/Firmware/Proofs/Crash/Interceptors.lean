import Firmware.Proofs.Crash.Layout
import Firmware.Proofs.Memory.Scanning

/-!
# Interceptors and records

A crash gets into the slot in two ways: an interceptor stores its parts in place, or a record that
was built before is stored as a whole. A name is cut on the way at a character boundary, at its first
zero byte and at the capacity of its field, by the one way before it is stored and by the other when
the record is built; a name that is handed over by address is cut by its reader as well.

* `writeAssert_eq_write`, `writeStackOverflow_eq_write`: the writers of an interceptor store a record.
* `interceptors_agree`: both ways leave the same bytes, from which the same record is read.
-/

namespace Firmware.Crash

open Memory Text

namespace Slot

/-- A failed assertion that is stored in place is stored as a record. -/
theorem writeAssert_eq_write (file : List UInt8) (line : UInt32) (slot slot' : Slot) :
    slot.writeAssert file line = slot'.write (.assert (Bounded.ofTerminated file) line) := by
  have hwrite : slot.write (.assert (Bounded.ofTerminated file) line) = slot.writeAssert file line := by
    rw [write, Bounded.bytes_ofTerminated, writeAssert_untilZero]
  rw [← hwrite]
  exact write_congr rfl rfl slot slot'

/-- A stack overflow that is stored in place is stored as a record. -/
theorem writeStackOverflow_eq_write (task : List UInt8) (slot slot' : Slot) :
    slot.writeStackOverflow task = slot'.write (.stackOverflow (Bounded.ofTerminated task)) := by
  have hwrite : slot.write (.stackOverflow (Bounded.ofTerminated task)) =
      slot.writeStackOverflow task := by
    rw [write, Bounded.bytes_ofTerminated, writeStackOverflow_untilZero]
  rw [← hwrite]
  exact write_congr rfl rfl slot slot'

end Slot

namespace Handler

variable {handler : Handler} {c : Call} {change : Slot.Write} {left : Slot} {record : Record}

/-- The call ends in a reset and leaves a slot from which a record is read. -/
def Leaves (handler : Handler) (c : Call) (left : Slot) (record : Record) : Prop :=
  ∃ next, handler.call c = (.reset, next) ∧ next.slot = left ∧
    next.call .read = (.record (some record), next)

/-- An interceptor leaves what its one change to the slot leaves. -/
theorem leaves_of_apply (hcall : handler.call c = (.reset, handler.capture [change]))
    (hleft : handler.slot.apply change = left) (hread : left.read? = some record) :
    handler.Leaves c left record := by
  refine ⟨handler.capture [change], hcall, hleft, ?_⟩
  have hslot : (handler.capture [change]).slot.read? = some record := by
    rw [← hread, ← hleft]
    rfl
  rw [call, hslot]

/-- **Both ways to store a crash agree**, whatever the slot held before. An interceptor that is given a
text leaves the bytes that the record of the text leaves, and exactly that record is read from them. A
string in memory, or none, is cut by its reader first, and still leaves the bytes that the writer leaves
which is given all of the string; what is read has the name that is built from the string: its bytes
before the first zero, as many of them as fit, and zeros after them. -/
theorem interceptors_agree (handler : Handler) (slot : Slot) :
    (∀ file line, handler.Leaves (.assertFailed file line) (slot.write (.ofAssert file line))
      (.ofAssert file line)) ∧
    (∀ task, handler.Leaves (.stackOverflow task) (slot.write (.ofStackOverflow task))
      (.ofStackOverflow task)) ∧
    (∀ address name, CString.Holds address name →
      (∃ file, CString.read address fileNameCapacity = .ok file ∧ ∀ line,
        handler.Leaves (.capture [.assert file line]) (slot.writeAssert name line)
          (.assert (Bounded.ofTerminated name) line)) ∧
      ∃ task, CString.read address taskNameCapacity = .ok task ∧
        handler.Leaves (.capture [.stackOverflow task]) (slot.writeStackOverflow name)
          (.stackOverflow (Bounded.ofTerminated name))) ∧
    ∀ capacity name, (Bounded.ofTerminated name : Bounded capacity).buffer.toList =
      zeroFilled (capacity + 1) ((name.takeWhile (· ≠ 0)).take capacity) := by
  refine ⟨fun file line => ?_, fun task => ?_, fun address name h => ⟨?_, ?_⟩, ?_⟩
  · have hwrite := Slot.writeAssert_eq_write (Utf8.cut fileNameCapacity file) line handler.slot slot
    refine leaves_of_apply rfl hwrite ?_
    rw [Record.ofAssert, Bounded.ofText, ← hwrite]
    exact Slot.read?_writeAssert _ line handler.slot
  · have hwrite := Slot.writeStackOverflow_eq_write (Utf8.cut taskNameCapacity task) handler.slot slot
    refine leaves_of_apply rfl hwrite ?_
    rw [Record.ofStackOverflow, Bounded.ofText, ← hwrite]
    exact Slot.read?_writeStackOverflow _ handler.slot
  · refine ⟨_, CString.read_of_holds h fileNameCapacity, fun line => ?_⟩
    refine leaves_of_apply rfl ?_ (Slot.read?_writeAssert name line slot)
    rw [Slot.apply, Slot.writeAssert_untilZero, Slot.writeAssert_eq_write name line handler.slot slot,
      Slot.writeAssert_eq_write name line slot slot]
  · refine ⟨_, CString.read_of_holds h taskNameCapacity, ?_⟩
    refine leaves_of_apply rfl ?_ (Slot.read?_writeStackOverflow name slot)
    rw [Slot.apply, Slot.writeStackOverflow_untilZero,
      Slot.writeStackOverflow_eq_write name handler.slot slot,
      Slot.writeStackOverflow_eq_write name slot slot]
  · intro capacity name
    rw [Bounded.toList_ofTerminated, CString.untilZero, List.take_takeWhile]

/-- A name whose last character goes over the end of its field. -/
def splitName : List UInt8 := List.replicate 126 0x78 ++ [0xc3, 0xa9]

theorem interceptors_agree_split :
    let memory : CString.Contents := fun i => some ((splitName ++ [0]).getD i 0xa5)
    CString.Holds (some memory) splitName ∧
      ∃ file, CString.read (some memory) fileNameCapacity = .ok file ∧
        (⟨Slot.ofRaw ⟨0xdeadbeef, Block.fit 0xa5 []⟩, none⟩ : Handler).Leaves
          (.capture [.assert file 7]) (Slot.zero.writeAssert splitName 7)
          (.assert (Bounded.ofTerminated (List.replicate 126 0x78 ++ [0xc3])) 7) := by
  intro memory
  have hholds : CString.Holds (some memory) splitName := by
    intro i b hb
    show some ((splitName ++ [0]).getD i 0xa5) = some b
    rw [List.getD_eq_getElem?_getD, show (splitName ++ [0])[i]? = some b from hb, Option.getD_some]
  have hcut : (Bounded.ofTerminated splitName : FileName) =
      Bounded.ofTerminated (List.replicate 126 0x78 ++ [0xc3]) := by decide +kernel
  obtain ⟨⟨file, hread, hleaves⟩, -⟩ := (interceptors_agree ⟨Slot.ofRaw ⟨0xdeadbeef, Block.fit 0xa5 []⟩,
    none⟩ Slot.zero).2.2.1 (some memory) splitName hholds
  rw [← hcut]
  exact ⟨hholds, file, hread, hleaves 7⟩

end Handler

end Firmware.Crash
