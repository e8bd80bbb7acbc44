import Firmware.Build.Settings

/-!
# The settings document

A settings document sets each tunable at most once, one to a line: a key, an equals sign and an
integer. Blank lines and comments may stand anywhere, and a byte order mark may stand in front. A key
is written bare or quoted, an integer in base ten, two, eight or sixteen with single underscores
between its digits. Whatever else the format of such documents allows has no meaning for the worker
and is refused.

* `ofEntries?_nil`: a document that sets nothing leaves the defaults.
* `digit?_lt`: a digit is below its base.
-/

namespace Firmware.Build

/-- A tunable that a document may set. -/
inductive Key where
  | disconnectTimeout
  | stackSize
  | priority
deriving DecidableEq

namespace Key

/-- All keys. -/
def all : List Key := [disconnectTimeout, stackSize, priority]

/-- The name of a key in a document. -/
def name : Key → String
  | disconnectTimeout => "disconnect-timeout-ms"
  | stackSize => "worker-stack-size"
  | priority => "worker-priority"

/-- The first value that is too large for a key. -/
def limit : Key → Nat
  | disconnectTimeout => UInt32.size
  | stackSize => UInt64.size
  | priority => UInt8.size

/-- The key with a given name. -/
def ofName? (name : List Char) : Option Key := all.find? fun key => key.name.toList == name

end Key

namespace Document

/-- The mark that may stand in front of a document. -/
def byteOrderMark : Char := Char.ofNat 0xfeff

/-- Whether a character separates words. -/
def isBlank (c : Char) : Bool := c == ' ' || c == '\t'

/-- Whether a character may stand in a comment or a quoted key. -/
def isPlain (c : Char) : Bool := c == '\t' || 0x20 ≤ c.toNat && c.toNat ≠ 0x7f

/-- Whether a character may stand in a key without quotes. -/
def isBare (c : Char) : Bool := c.isAlphanum || c == '_' || c == '-'

/-- The lines of a text, which end with a line feed or with a carriage return before one. -/
def lines : List Char → List (List Char)
  | [] => [[]]
  | '\r' :: '\n' :: cs => [] :: lines cs
  | '\n' :: cs => [] :: lines cs
  | c :: cs =>
    match lines cs with
    | line :: rest => (c :: line) :: rest
    | [] => [[c]]

/-- The value of a hexadecimal digit, in either case. -/
def hexDigit? (c : Char) : Option Nat :=
  if '0' ≤ c ∧ c ≤ '9' then some (c.toNat - '0'.toNat)
  else if 'a' ≤ c ∧ c ≤ 'f' then some (c.toNat - 'a'.toNat + 10)
  else if 'A' ≤ c ∧ c ≤ 'F' then some (c.toNat - 'A'.toNat + 10)
  else none

/-- The value of a digit in a base of at most sixteen. -/
def digit? (base : Nat) (c : Char) : Option Nat := (hexDigit? c).filter (· < base)

/-- Goes on with a number after its first digit. An underscore must have a digit after it. -/
def moreDigits? (base : Nat) : (value : Nat) → List Char → Option Nat
  | value, [] => some value
  | value, '_' :: c :: cs => (digit? base c).bind fun d => moreDigits? base (value * base + d) cs
  | value, c :: cs => (digit? base c).bind fun d => moreDigits? base (value * base + d) cs

/-- A number in some base, with at least one digit. -/
def number? (base : Nat) : List Char → Option Nat
  | [] => none
  | c :: cs => (digit? base c).bind fun d => moreDigits? base d cs

/-- A number in base ten, without needless zeros in front. -/
def decimal? (cs : List Char) : Option Nat :=
  match cs with
  | '0' :: _ :: _ => none
  | _ => number? 10 cs

/-- An integer; only in base ten may it have a sign. -/
def integer? : List Char → Option Int
  | '0' :: 'x' :: cs => (number? 16 cs).map Int.ofNat
  | '0' :: 'o' :: cs => (number? 8 cs).map Int.ofNat
  | '0' :: 'b' :: cs => (number? 2 cs).map Int.ofNat
  | '+' :: cs => (decimal? cs).map Int.ofNat
  | '-' :: cs => (decimal? cs).map fun n => -(n : Int)
  | cs => (decimal? cs).map Int.ofNat

/-- The character with a number given by hexadecimal digits. -/
def scalar? (digits : List Char) : Option Char := do
  let values ← digits.mapM hexDigit?
  let code := values.foldl (fun code d => code * 16 + d) 0
  if code.isValidChar then some (Char.ofNat code) else none

/-- The character that a short escape stands for. -/
def shortEscape? : Char → Option Char
  | 'b' => some '\x08'
  | 't' => some '\t'
  | 'n' => some '\n'
  | 'f' => some '\x0c'
  | 'r' => some '\r'
  | 'e' => some '\x1b'
  | '"' => some '"'
  | '\\' => some '\\'
  | _ => none

/-- Reads a key up to its closing double quote, with escapes. -/
def escapedKey? : List Char → Option (List Char × List Char)
  | [] => none
  | '"' :: rest => some ([], rest)
  | '\\' :: 'x' :: d1 :: d2 :: rest => consTo (scalar? [d1, d2]) (escapedKey? rest)
  | '\\' :: 'u' :: d1 :: d2 :: d3 :: d4 :: rest =>
    consTo (scalar? [d1, d2, d3, d4]) (escapedKey? rest)
  | '\\' :: 'U' :: d1 :: d2 :: d3 :: d4 :: d5 :: d6 :: d7 :: d8 :: rest =>
    consTo (scalar? [d1, d2, d3, d4, d5, d6, d7, d8]) (escapedKey? rest)
  | '\\' :: c :: rest => consTo (shortEscape? c) (escapedKey? rest)
  | c :: rest => consTo (if isPlain c && c ≠ '\\' then some c else none) (escapedKey? rest)
where
  /-- Puts a character in front of what was read after it. -/
  consTo (c? : Option Char) (rest? : Option (List Char × List Char)) :
      Option (List Char × List Char) := do
    let c ← c?
    let (name, rest) ← rest?
    pure (c :: name, rest)

/-- Reads a key up to its closing single quote. -/
def literalKey? : List Char → Option (List Char × List Char)
  | [] => none
  | '\x27' :: rest => some ([], rest)
  | c :: rest =>
    if isPlain c then (literalKey? rest).map fun (name, rest) => (c :: name, rest) else none

/-- Reads a key and gives what follows it. -/
def key? : List Char → Option (List Char × List Char)
  | '"' :: rest => escapedKey? rest
  | '\x27' :: rest => literalKey? rest
  | cs => if (cs.takeWhile isBare).isEmpty then none else some (cs.span isBare)

/-- Whether nothing but a comment is left of a line. -/
def isRemark (cs : List Char) : Bool :=
  match cs with
  | [] => true
  | '#' :: comment => comment.all isPlain
  | _ => false

/-- Reads a key, an equals sign and a value that suits the key. -/
def binding? (cs : List Char) : Option (Key × Nat) := do
  let (name, afterName) ← key? cs
  let key ← Key.ofName? name
  match afterName.dropWhile isBlank with
  | '=' :: afterSign =>
    let (digits, rest) := (afterSign.dropWhile isBlank).span fun c => !isBlank c && c ≠ '#'
    let value ← integer? digits
    if isRemark (rest.dropWhile isBlank) && decide (0 ≤ value ∧ value.toNat < key.limit) then
      pure (key, value.toNat)
    else none
  | _ => none

/-- What a line sets, if anything; `none` for a line that is refused. -/
def line? (cs : List Char) : Option (Option (Key × Nat)) :=
  let body := cs.dropWhile isBlank
  if isRemark body then some none else (binding? body).map some

/-- What a document sets, line by line; `none` for a document that is refused. -/
def entries? (text : List Char) : Option (List (Key × Nat)) :=
  let body := if text.head? = some byteOrderMark then text.tail else text
  ((lines body).mapM line?).map fun found => found.filterMap id

end Document

namespace Settings

/-- The settings with one tunable replaced. -/
def set (settings : Settings) : Key × Nat → Settings
  | (.disconnectTimeout, value) => { settings with disconnectTimeout := UInt32.ofNat value }
  | (.stackSize, value) => { settings with stackSize := UInt64.ofNat value }
  | (.priority, value) => { settings with priority := UInt8.ofNat value }

/-- The settings of a list of entries, unless a tunable is set twice. -/
def ofEntries? (entries : List (Key × Nat)) : Option Settings :=
  if (entries.map Prod.fst).Nodup then some (entries.foldl set default) else none

/-- The settings of a document. -/
def ofDocument? (text : String) : Option Settings :=
  (Document.entries? text.toList).bind ofEntries?

@[simp] theorem ofEntries?_nil : ofEntries? [] = some default := rfl

end Settings

theorem Document.digit?_lt {base d : Nat} {c : Char} (h : digit? base c = some d) : d < base := by
  simpa using (Option.filter_eq_some_iff.1 h).2

end Firmware.Build
