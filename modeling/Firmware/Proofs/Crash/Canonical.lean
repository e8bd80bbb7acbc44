import Firmware.Proofs.Crash.Layout

/-!
# Storing and decoding

A record that is stored and read back comes back as it was, but for what follows the terminator of
its name. Any bytes at all that are decoded and stored again lose what follows the terminator of a
name and what the kind does not use, and nothing else; so the images that some writer can leave are
those that this changes nothing in.

* `read?_write_of_built`: the record that is read back, and when it is the one that was stored.
* `fields_of_decodeAs`: the fields of a decoded record are the bytes it was decoded from.
* `write_decode`: what decoding and storing does to any image.
-/

namespace Firmware.Crash

open Memory Text

/-! ## From records to bytes and back -/

namespace Record

/-- What a view of names shows of the name that a record carries. -/
def name? {α : Type} (view : {capacity : Nat} → Bounded capacity → α) : Record → Option α
  | assert file _ => some (view file)
  | stackOverflow task => some (view task)
  | _ => none

/-- The numbers that a record carries, in the order of its fields. -/
def numbers : Record → List Int
  | assert _ line => [line.toNat]
  | railAssert code => [code.toNat]
  | stackOverflow _ => []
  | stackProtector address => [address.toNat]
  | fault dump => dump.words.map fun word => word.toNat
  | runtimeError code => [code.toNat]
  | exit status => [status.toInt]

/-- The name that the record carries was put into its buffer in one of the ways there are. -/
def Built : Record → Prop
  | assert file _ => file.Built
  | stackOverflow task => task.Built
  | _ => True

/-- Only zeros follow the name that the record carries. -/
def ZeroTailed : Record → Prop
  | assert file _ => file.ZeroTailed
  | stackOverflow task => task.ZeroTailed
  | _ => True

instance : (record : Record) → Decidable record.ZeroTailed
  | assert file _ => inferInstanceAs (Decidable file.ZeroTailed)
  | stackOverflow task => inferInstanceAs (Decidable task.ZeroTailed)
  | railAssert _ | stackProtector _ | fault _ | runtimeError _ | exit _ =>
    inferInstanceAs (Decidable True)

/-- The record with a zero in place of each byte of its name from the terminator on. -/
def cleared : Record → Record
  | assert file line => assert file.cleared line
  | stackOverflow task => stackOverflow task.cleared
  | record => record

theorem trimmed_eq_cleared {record : Record} (h : record.Built) :
    record.trimmed = record.cleared := by
  cases record with
  | assert file line => rw [trimmed, cleared, Bounded.ofTerminated_bytes h]
  | stackOverflow task => rw [trimmed, cleared, Bounded.ofTerminated_bytes h]
  | _ => rfl

theorem cleared_eq_self_iff (record : Record) : record.cleared = record ↔ record.ZeroTailed := by
  cases record with
  | assert file line =>
    rw [cleared, assert.injEq, and_iff_left rfl]
    exact Bounded.cleared_eq_self_iff file
  | stackOverflow task =>
    rw [cleared, stackOverflow.injEq]
    exact Bounded.cleared_eq_self_iff task
  | _ => exact iff_of_true rfl trivial

/-- A view of names that does not see what follows them does not see it in a record. -/
theorem name?_cleared {α : Type} {view : {capacity : Nat} → Bounded capacity → α}
    (hview : ∀ {capacity : Nat} {name : Bounded capacity}, name.Built →
      view name.cleared = view name)
    {record : Record} (h : record.Built) : record.cleared.name? view = record.name? view := by
  cases record with
  | assert file line => exact congrArg some (hview h)
  | stackOverflow task => exact congrArg some (hview h)
  | _ => rfl

theorem chars_cleared {capacity : Nat} {name : Bounded capacity} (h : name.Built) :
    name.cleared.chars = name.chars := by
  rw [Bounded.chars, Bounded.bytes_cleared h, Bounded.chars]

/-- What is shown of a record does not depend on what follows its name. -/
theorem pieces_cleared {record : Record} (h : record.Built) :
    record.cleared.pieces = record.pieces := by
  cases record with
  | assert file line => rw [cleared, pieces, chars_cleared h, pieces]
  | stackOverflow task => rw [cleared, pieces, chars_cleared h, pieces]
  | _ => rfl

theorem kind_cleared (record : Record) : record.cleared.kind = record.kind := by
  cases record <;> rfl

theorem numbers_cleared (record : Record) : record.cleared.numbers = record.numbers := by
  cases record <;> rfl

theorem built_ofAssert (file : List Char) (line : UInt32) : (ofAssert file line).Built :=
  Bounded.Built.ofText file

theorem built_ofStackOverflow (task : List Char) : (ofStackOverflow task).Built :=
  Bounded.Built.ofText task

end Record

namespace Slot

theorem read?_write_built {record : Record} (h : record.Built) (slot : Slot) :
    (slot.write record).read? = some record.cleared := by
  rw [read?_write, Record.trimmed_eq_cleared h]

/-- **A record is read back as it was stored, but for what follows its name.** So its name, its
numbers, its text and its report are the same, and it is the very same record exactly if only zeros
followed its name, as they do in a record that was made from a text. -/
theorem read?_write_of_built {record : Record} (h : record.Built) :
    (∀ slot : Slot, (slot.write record).read? = some record.cleared) ∧
    record.cleared.name? Bounded.bytes = record.name? Bounded.bytes ∧
    record.cleared.name? Bounded.chars = record.name? Bounded.chars ∧
    record.cleared.kind = record.kind ∧
    record.cleared.numbers = record.numbers ∧
    record.cleared.display = record.display ∧
    Report.ofRecord record.cleared = Report.ofRecord record ∧
    (∀ slot : Slot, (slot.write record).read? = some record ↔ record.ZeroTailed) ∧
    (∀ (slot : Slot) file line,
      (slot.write (.ofAssert file line)).read? = some (.ofAssert file line)) ∧
    ∀ (slot : Slot) task,
      (slot.write (.ofStackOverflow task)).read? = some (.ofStackOverflow task) := by
  have hpieces := Record.pieces_cleared h
  have hkind := record.kind_cleared
  refine ⟨read?_write_built h, Record.name?_cleared Bounded.bytes_cleared h,
    Record.name?_cleared Record.chars_cleared h, hkind, record.numbers_cleared, ?_, ?_, ?_, ?_, ?_⟩
  · rw [Record.display, hpieces, Record.display]
  · rw [Report.ofRecord, hpieces, hkind, Report.ofRecord]
  · intro slot
    rw [read?_write_built h, Option.some.injEq]
    exact record.cleared_eq_self_iff
  · intro slot file line
    rw [read?_write_built (Record.built_ofAssert file line), Record.ofAssert, Record.cleared,
      Bounded.ofText, Bounded.cleared_ofTerminated]
  · intro slot task
    rw [read?_write_built (Record.built_ofStackOverflow task), Record.ofStackOverflow,
      Record.cleared, Bounded.ofText, Bounded.cleared_ofTerminated]

/-- A name that is no valid text, with garbage after its terminator. -/
theorem read?_write_garbled :
    let record := Record.assert (Bounded.ofRaw (Block.fit 0xff [0x61, 0xc3, 0, 0x62])) 7
    record.Built ∧ ∀ slot : Slot,
      (slot.write record).read? = some (.assert (Bounded.ofTerminated [0x61, 0xc3]) 7) ∧
        (slot.write record).read? ≠ some record := by
  intro record
  have hbuilt : record.Built := Bounded.Built.ofRaw _
  obtain ⟨hread, -, -, -, -, -, -, hsame, -⟩ := read?_write_of_built hbuilt
  have hcleared : record.cleared = .assert (Bounded.ofTerminated [0x61, 0xc3]) 7 := by
    decide +kernel
  have htail : ¬ record.ZeroTailed := by decide +kernel
  refine ⟨hbuilt, fun slot => ⟨?_, ?_⟩⟩
  · rw [hread, hcleared]
  · exact fun hself => htail ((hsame slot).1 hself)

end Slot

/-! ## From bytes to records and back -/

namespace FaultDump

/-- The registers are all there is to a dump. -/
theorem words_injective : Function.Injective words := by
  have hleft : Function.LeftInverse (fun words => ofRegister fun i => words.getD i 0) words :=
    fun _ => rfl
  exact hleft.injective

theorem words_ofRegister (word : Nat → UInt32) :
    (ofRegister word).words = (List.range 13).map word := rfl

theorem ofRegister_congr {word word' : Nat → UInt32} (h : ∀ i < 13, word i = word' i) :
    ofRegister word = ofRegister word' := by
  apply words_injective
  rw [words_ofRegister, words_ofRegister]
  exact List.map_congr_left fun i hi => h i (List.mem_range.1 hi)

end FaultDump

namespace Kind

/-- The number of payload bytes that a kind of crash uses. -/
def region : Kind → Nat
  | noCrash => 0
  | assert => 132
  | railAssert => 4
  | stackOverflow => 64
  | stackProtector => 4
  | fault => 52
  | runtimeError => 4
  | exit => 4

/-- The number of bytes of the field of the name, the terminator included, where there is one. -/
def nameSize : Kind → Nat
  | assert => fileNameCapacity + 1
  | stackOverflow => taskNameCapacity + 1
  | _ => 0

theorem nameSize_le_region (kind : Kind) : kind.nameSize ≤ kind.region := by
  cases kind <;> decide

theorem region_le (kind : Kind) : kind.region ≤ payloadSize := by
  cases kind <;> decide

/-- A code that marks a record is the code of the kind it stands for. -/
theorem code_of_ofStored? {code : UInt32} {kind : Kind} (h : ofStored? code = some kind) :
    kind.code = code := by
  have hall : ∀ i : Fin all.length, (all.get i).code.toNat = i := by decide
  rw [ofStored?] at h
  split at h
  · cases h
  · obtain ⟨hlt, hkind⟩ := List.getElem?_eq_some_iff.1 h
    apply UInt32.toNat_inj.1
    rw [← hkind]
    exact hall ⟨code.toNat, hlt⟩

end Kind

namespace RawRecord

variable {payload : Block payloadSize} {kind : Kind} {record : Record}

/-- The payload bytes that no record of a kind keeps: those that the kind does not use, and of the
field of a name those from the first zero on, the last one in any case. -/
def Dropped (raw : RawRecord) (kind : Kind) (i : Nat) : Prop :=
  kind.region ≤ i ∨
    i < kind.nameSize ∧ (0 ∈ raw.payload.toList.take (i + 1) ∨ kind.nameSize ≤ i + 1)

instance (raw : RawRecord) (kind : Kind) (i : Nat) : Decidable (raw.Dropped kind i) :=
  inferInstanceAs (Decidable (_ ∨ _))

theorem nameField_window (payload : Block payloadSize) {capacity : Nat}
    (h : capacity + 1 ≤ payloadSize) :
    nameField capacity (Bounded.ofRaw (payload.window 0 : Block (capacity + 1))).bytes =
      nameField capacity payload.toList := by
  have hlen : (payload.slice 0 (capacity + 1)).length = capacity + 1 := by
    rw [Block.length_slice]
    omega
  have hname : CString.untilZero capacity (payload.window 0 : Block (capacity + 1)).toList =
      CString.untilZero capacity payload.toList := by
    rw [Block.window, Block.toList_fit 0 hlen, Block.slice, List.drop_zero, CString.untilZero,
      List.take_take, Nat.min_eq_left (by omega), CString.untilZero]
  rw [Bounded.bytes_ofRaw, nameField_untilZero, nameField, hname, nameField]

/-- **The fields of a decoded record are the bytes that it was decoded from**, its name cut at its
terminator. -/
theorem fields_of_decodeAs (h : decodeAs payload kind = some record) :
    record.fields =
      zeroFilled kind.nameSize (CString.untilZero (kind.nameSize - 1) payload.toList) ++
        (payload.toList.take kind.region).drop kind.nameSize := by
  have hword : LittleEndian.ofWord (payload.word 0) = payload.toList.take 4 :=
    Block.ofWord_word (by decide)
  cases kind with
  | noCrash => cases h
  | assert =>
    cases h
    rw [Record.fields, nameField_window payload (by decide), Block.ofWord_word (by decide),
      List.drop_take]
    rfl
  | stackOverflow =>
    cases h
    rw [Record.fields, nameField_window payload (by decide), List.drop_of_length_le,
      List.append_nil]
    · rfl
    · exact List.length_take_le _ _
  | fault =>
    cases h
    rw [Record.fields, registerField_eq_bytes, FaultDump.bytes, FaultDump.words_ofRegister,
      List.flatMap_map]
    exact Block.flatMap_word 13 (by decide)
  | exit =>
    cases h
    rw [Record.fields, UInt32.toUInt32_toInt32]
    exact hword
  | railAssert | stackProtector | runtimeError =>
    cases h
    exact hword

/-- Within the field of a name, its characters are what is kept. -/
theorem dropped_iff_of_lt {raw : RawRecord} {i : Nat} (h : i < kind.nameSize) :
    raw.Dropped kind i ↔
      ¬ (i < kind.nameSize - 1 ∧ 0 ∉ raw.payload.toList.take (i + 1)) := by
  have hname := kind.nameSize_le_region
  constructor
  · rintro (hout | ⟨-, hzero | hlast⟩) ⟨hlt, hkept⟩
    · omega
    · exact hkept hzero
    · omega
  · intro hcut
    refine Or.inr ⟨h, ?_⟩
    by_cases hzero : 0 ∈ raw.payload.toList.take (i + 1)
    · exact Or.inl hzero
    · exact Or.inr (Nat.le_of_not_lt fun hlt => hcut ⟨by omega, hzero⟩)

theorem dropped_iff_of_le {raw : RawRecord} {i : Nat} (h : kind.nameSize ≤ i) :
    raw.Dropped kind i ↔ kind.region ≤ i := by
  constructor
  · rintro (hout | ⟨hin, -⟩)
    · exact hout
    · omega
  · exact Or.inl

/-- The payload that a decoded record leaves when it is stored. -/
theorem getElem?_fields_of_decodeAs {raw : RawRecord} (h : decodeAs raw.payload kind = some record)
    {i : Nat} (hi : i < payloadSize) :
    (Block.fit 0 record.fields : Block payloadSize).toList[i]? =
      if raw.Dropped kind i then some 0 else raw.payload.toList[i]? := by
  have hlen := raw.payload.length_toList
  have hregion := kind.region_le
  have hle := CString.length_untilZero_le (kind.nameSize - 1) raw.payload.toList
  have hfield : (zeroFilled kind.nameSize
      (CString.untilZero (kind.nameSize - 1) raw.payload.toList)).length = kind.nameSize :=
    length_zeroFilled (by omega)
  have hget : raw.payload.toList[i]? = some raw.payload.toList[i] :=
    List.getElem?_eq_getElem (by omega)
  rw [Block.getElem?_fit, if_pos hi, fields_of_decodeAs h]
  by_cases hin : i < kind.nameSize
  · rw [List.getElem?_append_left (by omega), getElem?_zeroFilled (by omega), if_pos hin,
      CString.getElem?_untilZero, if_congr (dropped_iff_of_lt hin) rfl rfl, ite_not, hget]
    split <;> rfl
  · have hafter : kind.nameSize ≤ i := Nat.le_of_not_lt hin
    rw [List.getElem?_append_right (by omega), hfield, List.getElem?_drop, List.getElem?_take,
      Nat.add_sub_cancel' hafter, if_congr (dropped_iff_of_le hafter) rfl rfl, hget]
    by_cases hused : i < kind.region
    · rw [if_pos hused, if_neg (Nat.not_le_of_lt hused), Option.getD_some]
    · rw [if_neg hused, if_pos (Nat.le_of_not_lt hused), Option.getD_none]

/-- A record of a kind is decoded from the bytes that the kind uses. -/
theorem decodeAs_congr {payload' : Block payloadSize}
    (h : payload.toList.take kind.region = payload'.toList.take kind.region) :
    decodeAs payload kind = decodeAs payload' kind := by
  have hword : ∀ {offset : Nat}, offset + 4 ≤ kind.region →
      payload.word offset = payload'.word offset := by
    intro offset hoffset
    rw [Block.word, Block.word, Block.slice_congr hoffset h]
  have hwindow : ∀ {count : Nat}, 0 + count ≤ kind.region →
      (payload.window 0 : Block count) = payload'.window 0 := by
    intro count hcount
    rw [Block.window, Block.window, Block.slice_congr hcount h]
  cases kind with
  | noCrash => rfl
  | assert => rw [decodeAs, hwindow (by decide), hword (by decide), decodeAs]
  | stackOverflow => rw [decodeAs, hwindow (by decide), decodeAs]
  | fault =>
    have hregister : ∀ i < 13, payload.word (4 * i) = payload'.word (4 * i) :=
      fun i hi => hword (show 4 * i + 4 ≤ 52 by omega)
    rw [decodeAs, FaultDump.ofRegister_congr hregister, decodeAs]
  | railAssert | stackProtector | runtimeError | exit => rw [decodeAs, hword (by decide), decodeAs]

theorem decode?_congr {raw other : RawRecord} (hkind : other.kind = raw.kind)
    (h : ∀ kind, Kind.ofStored? raw.kind = some kind →
      other.payload.toList.take kind.region = raw.payload.toList.take kind.region) :
    other.decode? = raw.decode? := by
  rw [decode?, decode?, hkind]
  cases hstored : Kind.ofStored? raw.kind with
  | none => rfl
  | some kind => exact decodeAs_congr (h kind hstored)

theorem kind_code_of_decode? {raw : RawRecord} (h : raw.decode? = some record) :
    record.kind.code = raw.kind :=
  Kind.code_of_ofStored? (kind_of_decode? h)

/-- What storing a decoded record leaves of the image it was decoded from. -/
theorem raw_write_of_decode? {raw : RawRecord} (h : raw.decode? = some record) (slot : Slot) :
    (slot.write record).raw.kind = raw.kind ∧
      ∀ i < payloadSize, (slot.write record).raw.payload.toList[i]? =
        if raw.Dropped record.kind i then some 0 else raw.payload.toList[i]? := by
  obtain ⟨kind, -, hdecode⟩ := Option.bind_eq_some_iff.1 h
  obtain rfl : record.kind = kind := kind_of_decodeAs hdecode
  rw [Slot.raw_write]
  exact ⟨kind_code_of_decode? h, fun i hi => getElem?_fields_of_decodeAs hdecode hi⟩

/-- Storing what was read back changes nothing any more. -/
theorem exists_decode?_write (record : Record) (slot : Slot) :
    ∃ again, (slot.write record).raw.decode? = some again ∧
      ∀ slot' : Slot, slot'.write again = slot.write record := by
  refine ⟨record.trimmed, Slot.read?_write record slot, fun slot' => ?_⟩
  exact Slot.write_congr record.kind_trimmed record.fields_trimmed slot' slot

/-- The images that decoding and storing leaves as they are are those that some writer leaves. -/
theorem raw_write_eq_self_iff {raw : RawRecord} (h : raw.decode? = some record) (slot : Slot) :
    (slot.write record).raw = raw ↔
      ∃ (w : Slot.Write) (before : Slot), w.stored?.isSome ∧ (before.apply w).raw = raw := by
  constructor
  · intro hself
    exact ⟨.record record, slot, rfl, hself⟩
  · rintro ⟨w, before, hwriter, rfl⟩
    obtain ⟨⟨kind, fields⟩, hstored⟩ := Option.isSome_iff_exists.1 hwriter
    obtain ⟨stored, -, -, -, hwrite⟩ := Slot.apply_eq_write hstored
    rw [hwrite] at h ⊢
    obtain ⟨again, hagain, hsame⟩ := exists_decode?_write stored before
    obtain rfl : again = record := Option.some.inj (hagain.symm.trans h)
    rw [hsame]

/-- **Decoding any bytes and storing what was decoded** drops what follows the terminator of a name
and what the kind does not use, and keeps all else. Doing so again changes nothing, and it changes
nothing at all exactly in what some writer has left. Decoding succeeds by the kind alone, and depends
on the bytes that the kind uses only. -/
theorem write_decode (raw : RawRecord) :
    (raw.decode?.isSome ↔ 1 ≤ raw.kind.toNat ∧ raw.kind.toNat ≤ 7) ∧
    (∀ record, raw.decode? = some record →
      record.kind.code = raw.kind ∧
      (∀ slot : Slot, (slot.write record).raw.kind = raw.kind ∧
        ∀ i < payloadSize, (slot.write record).raw.payload.toList[i]? =
          if raw.Dropped record.kind i then some 0 else raw.payload.toList[i]?) ∧
      (∀ slot : Slot, ∃ again, (slot.write record).raw.decode? = some again ∧
        ∀ slot' : Slot, (slot'.write again).raw = (slot.write record).raw) ∧
      ∀ slot : Slot, (slot.write record).raw = raw ↔
        ∃ (w : Slot.Write) (before : Slot), w.stored?.isSome ∧ (before.apply w).raw = raw) ∧
    ∀ other : RawRecord, other.kind = raw.kind →
      (∀ kind, Kind.ofStored? raw.kind = some kind →
        other.payload.toList.take kind.region = raw.payload.toList.take kind.region) →
      other.decode? = raw.decode? := by
  refine ⟨?_, ?_, ?_⟩
  · rw [decode?_isSome_iff, Kind.ofStored?_isSome_iff]
    omega
  · intro record hrecord
    refine ⟨kind_code_of_decode? hrecord, raw_write_of_decode? hrecord, ?_,
      raw_write_eq_self_iff hrecord⟩
    intro slot
    obtain ⟨again, hagain, hsame⟩ := exists_decode?_write record slot
    exact ⟨again, hagain, fun slot' => congrArg Slot.raw (hsame slot')⟩
  · intro other hkind hpayload
    exact decode?_congr hkind hpayload

/-- Bytes that no writer leaves: a name goes on after its terminator, and no zero ends its field. -/
theorem write_decode_garbage :
    let raw : RawRecord := ⟨Kind.assert.code, Block.fit 0xa5 [0x6d, 0x2e, 0, 0x63]⟩
    ∃ record, raw.decode? = some record ∧ ∀ slot : Slot,
      (slot.write record).raw.payload.toList[1]? = some 0x2e ∧
      (slot.write record).raw.payload.toList[3]? = some 0 ∧
      (slot.write record).raw.payload.toList[127]? = some 0 ∧
      (slot.write record).raw.payload.toList[128]? = some 0xa5 ∧
      (slot.write record).raw ≠ raw := by
  intro raw
  have hdecode : raw.decode? = some (.assert (Bounded.ofRaw (raw.payload.window 0))
      (raw.payload.word lineOffset)) := rfl
  obtain ⟨-, hbyte, -, -⟩ := (write_decode raw).2.1 _ hdecode
  refine ⟨_, hdecode, fun slot => ?_⟩
  have hpayload := (hbyte slot).2
  have hthird := (hpayload 3 (by decide)).trans (by decide +kernel : _ = some (0 : UInt8))
  refine ⟨?_, hthird, ?_, ?_, ?_⟩
  · exact (hpayload 1 (by decide)).trans (by decide +kernel)
  · exact (hpayload 127 (by decide)).trans (by decide +kernel)
  · exact (hpayload 128 (by decide)).trans (by decide +kernel)
  · intro hself
    rw [hself] at hthird
    exact absurd hthird (by decide +kernel)

end RawRecord

end Firmware.Crash
