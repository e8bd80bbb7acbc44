import Firmware.Build.Configure

/-!
# The profile of the target

Which of the small-processor profiles a build is for, told from the name of its target. A build for
another processor has none, but a target that looks like a small processor and is not known is
refused.

* `ofTarget?_isSome_iff`: a target has a profile exactly if its name begins as those of a family do.
-/

namespace Firmware.Build

/-- A profile for small processors. -/
inductive Profile where
  | armv6m
  | armv7m
  | armv8m
deriving DecidableEq

namespace Profile

/-- All profiles. -/
def all : List Profile := [armv6m, armv7m, armv8m]

/-- The name of a profile. -/
def name : Profile → String
  | armv6m => "armv6m"
  | armv7m => "armv7m"
  | armv8m => "armv8m"

/-- How the names of the targets of a profile begin. -/
def families : Profile → List String
  | armv6m => ["thumbv6m"]
  | armv7m => ["thumbv7m", "thumbv7em"]
  | armv8m => ["thumbv8m"]

/-- Whether a target's name begins with a given text. -/
def beginsWith (target beginning : String) : Bool := beginning.toList.isPrefixOf target.toList

/-- The profile of a target, if it has one. -/
def ofTarget? (target : String) : Option Profile :=
  all.find? fun profile => profile.families.any (beginsWith target)

end Profile

/-- Why no profile was told. -/
inductive TargetError where
  | unset
  | unknown (target : String)
deriving DecidableEq

/-- The text of an error. -/
def TargetError.message : TargetError → String
  | unset => "TARGET not set"
  | unknown target => "don't know the M-profile of target " ++ target

/-- The lines that declare the profiles. -/
def declarations : String :=
  String.join (Profile.all.map fun profile =>
    "cargo::rustc-check-cfg=cfg(" ++ profile.name ++ ")\n")

/-- The profile of a build, or an error for a target that looks like a small processor. -/
def profileOf (target : Variable) : Except TargetError (Option Profile) :=
  match target.text? with
  | none => .error .unset
  | some target =>
    match Profile.ofTarget? target with
    | some profile => .ok (some profile)
    | none => if Profile.beginsWith target "thumb" then .error (.unknown target) else .ok none

/-- The step of a build that sets the profile. -/
def exposeProfile (target : Variable) : StepOutcome TargetError (Option Profile) :=
  let result := profileOf target
  let set :=
    match result with
    | .ok (some profile) => "cargo:rustc-cfg=" ++ profile.name ++ "\n"
    | _ => ""
  ⟨declarations ++ set, result⟩

theorem Profile.ofTarget?_isSome_iff (target : String) :
    (Profile.ofTarget? target).isSome ↔
      ∃ profile : Profile, profile.families.any (Profile.beginsWith target) := by
  rw [Profile.ofTarget?, List.find?_isSome]
  constructor
  · rintro ⟨profile, -, h⟩
    exact ⟨profile, h⟩
  · rintro ⟨profile, h⟩
    exact ⟨profile, by cases profile <;> simp [Profile.all], h⟩

end Firmware.Build
