/-!
# Kinds of crash

The kinds and their stored codes. Code zero means that nothing crashed; it has a name of its own but
never marks a record.

* `ofStored?_code`: every kind of a record is read back from its code.
* `ofStored?_isSome_iff`: the codes that mark a record are those from 1 to 7.
-/

namespace Firmware.Crash

/-- What brought the program down. -/
inductive Kind where
  /-- Nothing did. -/
  | noCrash
  /-- A failed assertion in the program. -/
  | assert
  /-- A failed assertion in the radio driver. -/
  | railAssert
  /-- A task that overran its stack. -/
  | stackOverflow
  /-- A stack canary that was overwritten. -/
  | stackProtector
  /-- A hardware fault. -/
  | fault
  /-- A failed check of the C runtime. -/
  | runtimeError
  /-- An attempt to leave the program. -/
  | exit
deriving DecidableEq

namespace Kind

/-- All kinds, by rising code. -/
def all : List Kind :=
  [noCrash, assert, railAssert, stackOverflow, stackProtector, fault, runtimeError, exit]

/-- The first code that no kind has. -/
def codeLimit : UInt32 := 8

/-- The code that stands for a kind in memory. -/
def code : Kind → UInt32
  | noCrash => 0
  | assert => 1
  | railAssert => 2
  | stackOverflow => 3
  | stackProtector => 4
  | fault => 5
  | runtimeError => 6
  | exit => 7

/-- The name of a kind. -/
def name : Kind → String
  | noCrash => "None"
  | assert => "Assert"
  | railAssert => "RailAssert"
  | stackOverflow => "StackOverflow"
  | stackProtector => "StackProtector"
  | fault => "Fault"
  | runtimeError => "CRunError"
  | exit => "Exit"

/-- The kind with a given code, the absence of a crash included. -/
def ofInt? : Int → Option Kind
  | .ofNat n => all[n]?
  | .negSucc _ => none

/-- The kind that a stored code marks a record with. -/
def ofStored? (code : UInt32) : Option Kind :=
  if code = noCrash.code ∨ codeLimit ≤ code then none else ofInt? code.toNat

theorem ofInt?_code (kind : Kind) : ofInt? kind.code.toNat = some kind := by
  cases kind <;> rfl

/-- Kinds are read back from their codes, except the one that marks no record. -/
theorem ofStored?_code (kind : Kind) :
    ofStored? kind.code = if kind = noCrash then none else some kind := by
  cases kind <;> rfl

theorem ofStored?_isSome_iff (code : UInt32) :
    (ofStored? code).isSome ↔ 1 ≤ code.toNat ∧ code.toNat < 8 := by
  have hzero : code = noCrash.code ↔ code.toNat = 0 := by
    rw [← UInt32.toNat_inj]
    rfl
  have hlimit : codeLimit ≤ code ↔ 8 ≤ code.toNat := UInt32.le_iff_toNat_le
  simp only [ofStored?, hzero, hlimit]
  split
  · simp only [Option.isSome_none, Bool.false_eq_true, false_iff]
    omega
  · have hlt : code.toNat < all.length := by
      rw [show all.length = 8 from rfl]
      omega
    have hget : ofInt? code.toNat = some all[code.toNat] := List.getElem?_eq_getElem hlt
    simp only [hget, Option.isSome_some, true_iff]
    omega

end Kind

end Firmware.Crash
