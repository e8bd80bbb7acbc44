import Firmware.Build.Document
import Firmware.Text.Utf8

/-!
# The configuration step

A build takes the settings from a variable of its environment, checks them and writes them out as
constants. It prints what it read, also where it fails afterwards.

* `Variable.text?_ofText`: a variable that was set to a text has that text.
* `configure_unset`: without a variable the constants are those of the default settings.
-/

namespace Firmware.Build

open Text

/-- A variable of the environment. -/
inductive Variable where
  | unset
  /-- Set to any bytes, which need not be text. -/
  | set (value : List UInt8)
deriving DecidableEq

namespace Variable

/-- A variable that is set to a text. -/
def ofText (value : String) : Variable := set (Utf8.encode value.toList)

/-- The text of a variable, if it is set and its value is text. -/
def text? : Variable → Option String
  | unset => none
  | set value => Utf8.decode? value

/-- A variable that was set to a text has that text. -/
@[simp] theorem text?_ofText (value : String) : (ofText value).text? = some value :=
  Utf8.decode?_encode value

end Variable

/-- Where a build writes its output. -/
inductive OutputDirectory where
  | present
  /-- None was named. -/
  | unset
  /-- The one that was named does not exist. -/
  | missing
deriving DecidableEq

/-- Why no constants were written. -/
inductive ConfigureError where
  | malformedDocument
  | badSettings (cause : SettingsError)
  | outputUnset
  | outputMissing
deriving DecidableEq

/-- The text of an error. -/
def ConfigureError.message : ConfigureError → String
  | malformedDocument => "parsing configuration TOML"
  | badSettings cause => cause.message
  | outputUnset => "OUT_DIR not set"
  | outputMissing => "No such file or directory (os error 2)"

/-- What a step printed, and what it came to. -/
structure StepOutcome (ε α : Type) where
  printed : String
  result : Except ε α

/-- The name of the variable that holds the settings document. -/
def settingsVariable : String := "ACTION_SCHEDULER_CONFIG"

/-- The lines that tell which document is used. -/
def announcement (document : Option String) : String :=
  let watched := "cargo:rerun-if-env-changed=" ++ settingsVariable ++ "\n"
  match document with
  | some text => watched ++ "--- toml for $" ++ settingsVariable ++ " ---\n" ++ text ++ "\n"
  | none => watched ++ "--- var $" ++ settingsVariable ++ " not present, using default ---\n"

/-- The settings of a document, or the defaults where there is none. -/
def settingsOf (document : Option String) : Except ConfigureError Settings :=
  match document with
  | none => .ok Settings.default
  | some text =>
    match Settings.ofDocument? text with
    | some settings => .ok settings
    | none => .error .malformedDocument

/-- The constants that a build writes. The document is read first, then the settings are checked, and
only then is the output looked at. -/
def constantsOf (document : Option String) (output : OutputDirectory) :
    Except ConfigureError String := do
  let settings ← settingsOf document
  settings.check.mapError .badSettings
  match output with
  | .present => pure settings.constants
  | .unset => throw .outputUnset
  | .missing => throw .outputMissing

/-- The configuration step of a build. -/
def configure (config : Variable) (output : OutputDirectory) :
    StepOutcome ConfigureError String :=
  ⟨announcement config.text?, constantsOf config.text? output⟩

theorem configure_unset : (configure .unset .present).result = .ok Settings.default.constants := rfl

end Firmware.Build
