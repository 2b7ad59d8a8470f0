import RvCodec.Text.Basic
import RvCodec.Text.Case

/-!
# Config files

The settings of a conversion, and how a config file is decoded to settings.  What decodes files is a
parameter of the commands, a `ConfigDecoder`: they rely on nothing but that it fills in the settings
that the file has keys for.

`ConfigFile.decode` is the decoder that the programs here run with.  It reads the common subset of
TOML: one setting a line, `key = value`, with bare keys in any case, and values that are basic
strings, integers or truth values, with comments behind `#` and blanks around everything.
-/

set_option autoImplicit false

namespace RvCodec.Cli

/-! ## Settings -/

/-- What one place says about the settings. -/
structure Choices where
  xlen : Option String := none
  embedded : Option Bool := none
  base : Option String := none
  noSingle : Option Bool := none
  noDouble : Option Bool := none
  noQuad : Option Bool := none
  jobs : Option Int := none
  deriving DecidableEq, Repr

/-- The settings of a conversion, unchecked. -/
structure Settings where
  xlen : String
  embedded : Bool
  base : String
  noSingle : Bool
  noDouble : Bool
  noQuad : Bool
  /-- How many files are worked on at once. -/
  jobs : Int
  deriving DecidableEq, Repr

/-- The settings with everything empty, off or zero about which nothing is said. -/
def Choices.filled (c : Choices) : Settings :=
  { xlen := c.xlen.getD "", embedded := c.embedded.getD false, base := c.base.getD "",
    noSingle := c.noSingle.getD false, noDouble := c.noDouble.getD false,
    noQuad := c.noQuad.getD false, jobs := c.jobs.getD 0 }

/-- Decodes the text of a config file: the settings, and the keys in the file that belong to no
setting, or why the text cannot be decoded. -/
abbrev ConfigDecoder := String → Except String (Settings × List String)

/-! ## Entries -/

inductive ConfigValue where
  | text (s : String)
  | integer (n : Int)
  | truth (b : Bool)
  deriving DecidableEq, Repr

structure ConfigEntry where
  key : String
  value : ConfigValue
  deriving DecidableEq, Repr

/-- Why a text is no config file. -/
inductive ConfigFault where
  | malformedLine (number : Nat)
  | repeatedKey (key : String)
  /-- The value of a setting is not of the kind it has to be. -/
  | wrongKind (key : String)
  deriving DecidableEq, Repr

def ConfigFault.message : ConfigFault → String
  | malformedLine number => s!"line {Text.numeral 10 number} is not a setting"
  | repeatedKey key => s!"key {key} is given twice"
  | wrongKind key => s!"key {key} has a value of the wrong kind"

namespace ConfigFile

/-! ## Characters -/

/-- A blank inside a line. -/
def isGap (c : Char) : Bool := c = ' ' || c = '\t'

/-- A character of a bare key. -/
def isKeyChar (c : Char) : Bool := c.isAlphanum || c = '_' || c = '-'

/-- A control character, which must not occur anywhere. -/
def isControl (c : Char) : Bool := (c.toNat < 32 && c != '\t') || c.toNat = 127

/-- The rest of a line after blanks. -/
def skipGap (cs : List Char) : List Char := cs.dropWhile isGap

/-- Nothing remains but blanks and a comment. -/
def isFinished (cs : List Char) : Bool :=
  match skipGap cs with
  | [] => true
  | c :: _ => c = '#'

/-! ## Values -/

/-- The character with a code of exactly this many hexadecimal digits, and what follows. -/
def codePoint? (width : Nat) (cs : List Char) : Option (Char × List Char) := do
  let digits := cs.take width
  if digits.length ≠ width then failure
  let n ← Text.readNat? 16 digits
  if n.isValidChar then return (Char.ofNat n, cs.drop width) else failure

/-- The character that an escape stands for, and what follows it. -/
def escape? : List Char → Option (Char × List Char)
  | 'b' :: cs => some (Char.ofNat 8, cs)
  | 't' :: cs => some ('\t', cs)
  | 'n' :: cs => some ('\n', cs)
  | 'f' :: cs => some (Char.ofNat 12, cs)
  | 'r' :: cs => some ('\r', cs)
  | '"' :: cs => some ('"', cs)
  | '\\' :: cs => some ('\\', cs)
  | 'u' :: cs => codePoint? 4 cs
  | 'U' :: cs => codePoint? 8 cs
  | _ => none

/-- The contents of a string up to the closing quote, and what follows.  The fuel is the length of
the line, which every step shortens. -/
def stringBody? : Nat → List Char → Option (List Char × List Char)
  | 0, _ => none
  | fuel + 1, cs =>
    match cs with
    | [] => none
    | '"' :: rest => some ([], rest)
    | '\\' :: rest => do
      let (c, rest) ← escape? rest
      let (body, rest) ← stringBody? fuel rest
      return (c :: body, rest)
    | c :: rest => do
      let (body, rest) ← stringBody? fuel rest
      return (c :: body, rest)

/-- Digits of a base, with single underscores between them. -/
def groupedDigits? (base : Nat) (cs : List Char) : Option Nat :=
  if (Text.splitChars '_' cs).any (·.isEmpty) then none
  else Text.readNat? base (cs.filter (· ≠ '_'))

/-- Decimal digits without a superfluous zero in front. -/
def decimalDigits? (cs : List Char) : Option Nat :=
  if 1 < cs.length ∧ cs.head? = some '0' then none else groupedDigits? 10 cs

/-- An integer: signed in decimal, or unsigned in another base behind its mark. -/
def integer? (cs : List Char) : Option Int :=
  let value : Option Int :=
    match cs with
    | '0' :: 'x' :: digits => (groupedDigits? 16 digits).map Int.ofNat
    | '0' :: 'o' :: digits => (groupedDigits? 8 digits).map Int.ofNat
    | '0' :: 'b' :: digits => (groupedDigits? 2 digits).map Int.ofNat
    | '-' :: digits => (decimalDigits? digits).map fun n => -(n : Int)
    | '+' :: digits => (decimalDigits? digits).map Int.ofNat
    | digits => (decimalDigits? digits).map Int.ofNat
  value.filter fun v => -(1 <<< 63 : Nat) ≤ v && v < (1 <<< 63 : Nat)

/-- The value at the start of the characters, and what follows it. -/
def value? (cs : List Char) : Option (ConfigValue × List Char) :=
  match cs with
  | '"' :: rest =>
    (stringBody? (rest.length + 1) rest).map fun (body, rest) => (.text (String.ofList body), rest)
  | _ =>
    let word := cs.takeWhile fun c => !isGap c && c != '#'
    let rest := cs.drop word.length
    if word = ['t', 'r', 'u', 'e'] then some (.truth true, rest)
    else if word = ['f', 'a', 'l', 's', 'e'] then some (.truth false, rest)
    else (integer? word).map fun n => (.integer n, rest)

/-! ## Lines -/

/-- The setting on a line that is neither blank nor a comment. -/
def entry? (cs : List Char) : Option ConfigEntry := do
  let cs := skipGap cs
  let key := cs.takeWhile isKeyChar
  if key.isEmpty then failure
  match skipGap (cs.drop key.length) with
  | '=' :: rest =>
    let (value, rest) ← value? (skipGap rest)
    if isFinished rest then return ⟨String.ofList key, value⟩ else failure
  | _ => failure

/-- The characters of a line without the carriage return of its line end. -/
def withoutReturn (isLast : Bool) (cs : List Char) : List Char :=
  if !isLast && cs.getLast? = some '\r' then cs.dropLast else cs

/-- The settings on numbered lines. -/
def entries : Nat → List (List Char) → Except ConfigFault (List ConfigEntry)
  | _, [] => .ok []
  | number, raw :: rest =>
    let line := withoutReturn rest.isEmpty raw
    if line.any isControl then .error (.malformedLine number)
    else if isFinished line then entries (number + 1) rest
    else
      match entry? line with
      | none => .error (.malformedLine number)
      | some entry => do return entry :: (← entries (number + 1) rest)

/-- The first key that was given before. -/
def repeatedKey? : List String → List ConfigEntry → Option String
  | _, [] => none
  | seen, entry :: rest =>
    if seen.contains entry.key then some entry.key else repeatedKey? (entry.key :: seen) rest

/-- The text without a byte order mark in front. -/
def withoutMark : List Char → List Char
  | c :: cs => if c.toNat = 0xfeff then cs else c :: cs
  | [] => []

/-- The settings of a config file in order. -/
def parse (text : String) : Except ConfigFault (List ConfigEntry) := do
  let found ← entries 1 (Text.splitChars '\n' (withoutMark text.toList))
  match repeatedKey? [] found with
  | some key => throw (.repeatedKey key)
  | none => return found

/-! ## Decoding -/

/-- A key of some setting. -/
def isSettingKey (key : String) : Bool :=
  ["xlen", "e", "base", "no-f", "no-d", "no-q", "j"].contains (Text.lower key)

/-- Takes in one entry of the file; none if its value is of the wrong kind, and no change if its key
is not known. -/
def addEntry (c : Choices) (entry : ConfigEntry) : Option Choices :=
  match Text.lower entry.key, entry.value with
  | "xlen", .text s => some { c with xlen := some s }
  | "e", .truth b => some { c with embedded := some b }
  | "base", .text s => some { c with base := some s }
  | "no-f", .truth b => some { c with noSingle := some b }
  | "no-d", .truth b => some { c with noDouble := some b }
  | "no-q", .truth b => some { c with noQuad := some b }
  | "j", .integer n => some { c with jobs := some n }
  | _, _ => if isSettingKey entry.key then none else some c

def choices : Choices → List ConfigEntry → Except ConfigFault Choices
  | c, [] => .ok c
  | c, entry :: rest =>
    match addEntry c entry with
    | some c => choices c rest
    | none => .error (.wrongKind entry.key)

/-- What a file says about the settings, and its other keys. -/
def read (text : String) : Except ConfigFault (Choices × List String) := do
  let found ← parse text
  let file ← choices {} found
  return (file, (found.filter fun entry => !isSettingKey entry.key).map (·.key))

def decode : ConfigDecoder := fun text =>
  match read text with
  | .ok (file, unknown) => .ok (file.filled, unknown)
  | .error why => .error why.message

end ConfigFile

end RvCodec.Cli
