import Firmware.Proofs.Crash.Canonical
import Firmware.Proofs.Text.Decoding
import Firmware.Proofs.Text.Numerals

/-!
# Reports tell crashes apart

The text of a report begins with the kind of crash and goes on with all that the record carries. A
name may hold anything, the words that follow it in the report included; the number after it can still
be told from it, since it goes on to the end of the text.

* `text_ofRecord`: no record is too long for its report.
* `kind_eq_of_display`: the first characters tell the kind.
* `text_eq_iff`: two reports have the same text exactly if their records say the same.
-/

namespace Firmware.Crash

open Memory Text

/-! ## Nothing is cut -/

theorem size_register (label : String) (word : UInt32) :
    Utf8.size (register label word).flatten = Utf8.size label.toList + 10 := by
  simp only [register, List.flatten_cons, List.flatten_nil, Clipped.size_append,
    Numeral.size_hexWord]
  rfl

namespace Record

theorem size_display_le (record : Record) : Utf8.size record.display ≤ reportCapacity := by
  have hdecimal : ∀ word : UInt32, Utf8.size (Numeral.decimal word.toNat) ≤ 10 := by
    intro word
    have hlt := word.toNat_lt
    exact Numeral.size_decimal_le (by decide) (by omega)
  cases record with
  | assert file line =>
    have hname : Utf8.size file.chars ≤ 128 := file.size_chars_le
    have hline := hdecimal line
    have hsum : Utf8.size (assert file line).display =
        11 + (Utf8.size file.chars + (9 + (Utf8.size (Numeral.decimal line.toNat) + 3))) := by
      simp only [display, pieces, List.flatten_cons, List.flatten_nil, Clipped.size_append]
      rfl
    rw [hsum, reportCapacity]
    omega
  | railAssert code =>
    have hcode := hdecimal code
    have hsum : Utf8.size (railAssert code).display =
        13 + (Utf8.size (Numeral.decimal code.toNat) + 3) := by
      simp only [display, pieces, List.flatten_cons, List.flatten_nil, Clipped.size_append]
      rfl
    rw [hsum, reportCapacity]
    omega
  | stackOverflow task =>
    have hname : Utf8.size task.chars ≤ 64 := task.size_chars_le
    have hsum : Utf8.size (stackOverflow task).display = 33 + (Utf8.size task.chars + 4) := by
      simp only [display, pieces, List.flatten_cons, List.flatten_nil, Clipped.size_append]
      rfl
    rw [hsum, reportCapacity]
    omega
  | stackProtector address =>
    simp only [display, pieces, List.flatten_append, Clipped.size_append, size_register]
    decide
  | fault dump =>
    simp only [display, pieces, FaultDump.pieces, List.flatten_append, Clipped.size_append,
      size_register]
    decide
  | runtimeError code =>
    simp only [display, pieces, List.flatten_append, Clipped.size_append, size_register]
    decide
  | exit status =>
    have hlt := status.toInt_lt
    have hle := status.le_toInt
    have hstatus : Utf8.size (Numeral.signedDecimal status.toInt) ≤ 10 + 1 :=
      Numeral.size_signedDecimal_le (by decide) (by omega)
    have hsum : Utf8.size (exit status).display =
        13 + (Utf8.size (Numeral.signedDecimal status.toInt) + 3) := by
      simp only [display, pieces, List.flatten_cons, List.flatten_nil, Clipped.size_append]
      rfl
    rw [hsum, reportCapacity]
    omega

end Record

/-- **A report holds the whole text of its record.** -/
theorem Report.text_ofRecord (record : Record) : (ofRecord record).text = record.display :=
  Clipped.write_eq_flatten _ _ record.size_display_le

/-! ## The kind -/

/-- What the text of each kind of record begins with. -/
def Kind.lead : Kind → List Char
  | noCrash => []
  | assert => "[ASSERT ".toList
  | railAssert => "[RAIL AS".toList
  | stackOverflow => "[STACK O".toList
  | stackProtector => "[STACK P".toList
  | fault => "[FAULT C".toList
  | runtimeError => "[C-RUN e".toList
  | exit => "[EXIT st".toList

theorem Kind.lead_injective : Function.Injective lead := by
  have hfind : ∀ kind : Kind, all.find? (·.lead == kind.lead) = some kind := by
    intro kind
    cases kind <;> rfl
  intro kind kind' h
  have hsame := hfind kind
  rw [h, hfind kind'] at hsame
  exact (Option.some.inj hsame).symm

namespace Record

variable {record record' : Record}

theorem take_display (record : Record) : record.display.take 8 = record.kind.lead := by
  cases record with
  | fault dump =>
    -- nested to the right, the first of the many pieces is found at once
    simp only [display, pieces, FaultDump.pieces, List.append_assoc]
    rfl
  | _ => rfl

theorem kind_eq_of_display (h : record.display = record'.display) : record.kind = record'.kind := by
  apply Kind.lead_injective
  rw [← take_display, ← take_display, h]

/-! ## The fields -/

theorem eq_of_flatten {front back text text' : List Char}
    (h : [front, text, back].flatten = [front, text', back].flatten) : text = text' := by
  simp only [List.flatten_cons, List.flatten_nil, List.append_nil] at h
  exact List.append_cancel_right (List.append_cancel_left h)

theorem word_eq_of_flatten {label : String} {back : List Char} {word word' : UInt32}
    (h : (register label word ++ [back]).flatten = (register label word' ++ [back]).flatten) :
    word = word' := by
  simp only [register, List.cons_append, List.nil_append, List.flatten_cons, List.flatten_nil,
    List.append_nil] at h
  have hword := List.append_cancel_left (List.append_cancel_left h)
  exact Numeral.hexWord_injective (List.append_cancel_right hword)

theorem display_assert (file : FileName) (line : UInt32) :
    (assert file line).display = ["[ASSERT in ".toList,
      (file.chars ++ " on line".toList) ++ ' ' :: Numeral.decimal line.toNat,
      "]\r\n".toList].flatten := by
  simp only [display, pieces, List.flatten_cons, List.flatten_nil, List.append_assoc,
    List.append_nil]
  rfl

/-- The name may hold anything, but no line goes on to the left of the space before it. -/
theorem assert_of_display {file file' : FileName} {line line' : UInt32}
    (h : (assert file line).display = (assert file' line').display) :
    file.chars = file'.chars ∧ line = line' := by
  rw [display_assert, display_assert] at h
  obtain ⟨hname, hline⟩ := Numeral.append_digits_injective (by decide)
    (fun _ => Numeral.isDigit_of_mem_decimal) (fun _ => Numeral.isDigit_of_mem_decimal)
    (eq_of_flatten h)
  exact ⟨List.append_cancel_right hname, UInt32.toNat_inj.1 (Numeral.decimal_injective hline)⟩

/-- The pieces of two faults have the same lengths, so their texts are told apart piece by piece. -/
theorem fault_of_display {dump dump' : FaultDump}
    (h : (fault dump).display = (fault dump').display) : dump = dump' := by
  have hlen : (fault dump).pieces.map List.length = (fault dump').pieces.map List.length := by
    simp only [pieces, FaultDump.pieces, register, List.map_append, List.map_cons, List.map_nil,
      Numeral.length_hexWord]
  have hpieces := List.eq_iff_flatten_eq.2 ⟨h, hlen⟩
  simp only [pieces, FaultDump.pieces, register, List.cons_append, List.nil_append,
    List.cons.injEq, Numeral.hexWord_injective.eq_iff, true_and, and_true] at hpieces
  exact FaultDump.words_injective (by simp only [FaultDump.words, hpieces])

/-- What a record says: its name as it is shown, and its numbers. -/
def said (record : Record) : Option (List Char) × List Int :=
  (record.name? Bounded.chars, record.numbers)

/-- **The text of a record tells all that the record says**, once the kind is known. -/
theorem said_eq_of_display (hkind : record.kind = record'.kind)
    (h : record.display = record'.display) : record.said = record'.said := by
  cases record with
  | assert file line =>
    cases record' with
    | assert file' line' =>
      obtain ⟨hname, rfl⟩ := assert_of_display h
      exact congrArg (fun name => (some name, _)) hname
    | _ => cases hkind
  | railAssert code =>
    cases record' with
    | railAssert code' =>
      have hcode := Numeral.decimal_injective (eq_of_flatten h)
      rw [UInt32.toNat_inj.1 hcode]
    | _ => cases hkind
  | stackOverflow task =>
    cases record' with
    | stackOverflow task' => exact congrArg (fun name => (some name, _)) (eq_of_flatten h)
    | _ => cases hkind
  | stackProtector address =>
    cases record' with
    | stackProtector address' => rw [word_eq_of_flatten h]
    | _ => cases hkind
  | fault dump =>
    cases record' with
    | fault dump' => rw [fault_of_display h]
    | _ => cases hkind
  | runtimeError code =>
    cases record' with
    | runtimeError code' => rw [word_eq_of_flatten h]
    | _ => cases hkind
  | exit status =>
    cases record' with
    | exit status' =>
      have hstatus := Numeral.signedDecimal_injective (eq_of_flatten h)
      rw [Int32.toInt_inj.1 hstatus]
    | _ => cases hkind

/-- The text shows nothing else. -/
theorem display_eq_of_said (hkind : record.kind = record'.kind)
    (h : record.said = record'.said) : record.display = record'.display := by
  obtain ⟨hname, hnumbers⟩ := Prod.mk.inj h
  have hinjective : Function.Injective fun word : UInt32 => (word.toNat : Int) :=
    fun word word' hsame => UInt32.toNat_inj.1 (Int.ofNat_inj.1 hsame)
  have hword : ∀ {word word' : UInt32}, [(word.toNat : Int)] = [(word'.toNat : Int)] →
      word = word' := fun hsame => hinjective (List.cons.inj hsame).1
  cases record with
  | assert file line =>
    cases record' with
    | assert file' line' =>
      have hchars : file.chars = file'.chars := Option.some.inj hname
      rw [display, pieces, hchars, hword hnumbers, display, pieces]
    | _ => cases hkind
  | railAssert code =>
    cases record' with
    | railAssert code' => rw [hword hnumbers]
    | _ => cases hkind
  | stackOverflow task =>
    cases record' with
    | stackOverflow task' =>
      have hchars : task.chars = task'.chars := Option.some.inj hname
      rw [display, pieces, hchars, display, pieces]
    | _ => cases hkind
  | stackProtector address =>
    cases record' with
    | stackProtector address' => rw [hword hnumbers]
    | _ => cases hkind
  | fault dump =>
    cases record' with
    | fault dump' =>
      rw [FaultDump.words_injective (List.map_inj_right (@hinjective) |>.1 hnumbers)]
    | _ => cases hkind
  | runtimeError code =>
    cases record' with
    | runtimeError code' => rw [hword hnumbers]
    | _ => cases hkind
  | exit status =>
    cases record' with
    | exit status' => rw [Int32.toInt_inj.1 (List.cons.inj hnumbers).1]
    | _ => cases hkind

end Record

/-- **Two reports have the same text exactly if their records say the same**: if they are of one kind
and agree in the name as it is shown and in every number. -/
theorem Report.text_eq_iff (record record' : Record) :
    (ofRecord record).text = (ofRecord record').text ↔
      record.kind = record'.kind ∧
      record.name? Bounded.chars = record'.name? Bounded.chars ∧
      record.numbers = record'.numbers := by
  rw [text_ofRecord, text_ofRecord]
  constructor
  · intro h
    have hkind := Record.kind_eq_of_display h
    exact ⟨hkind, Prod.mk.inj (Record.said_eq_of_display hkind h)⟩
  · rintro ⟨hkind, hname, hnumbers⟩
    exact Record.display_eq_of_said hkind (Prod.ext hname hnumbers)

-- a name that looks like the end of its own report
example : (Report.ofRecord (.ofAssert "a on line 7]\r\n".toList 8)).text =
    "[ASSERT in a on line 7]\r\n on line 8]\r\n".toList := by
  decide +kernel

end Firmware.Crash
