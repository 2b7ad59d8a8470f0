import RvCodec.Cli.Integer
import RvCodec.Text.Quoted

/-!
# Flags

Command line arguments begin with flags: `-name`, `-name=value` or `-name value`, with one or two
dashes.  A switch takes a value only behind an equals sign; any other flag needs one.  The flags end
at `--`, at a lone dash, or at the first argument without a dash.

The same flag may be given several times; the last one counts.
-/

set_option autoImplicit false

namespace RvCodec.Cli

/-! ## Declarations -/

/-- What a flag takes, and its value when it is not given. -/
inductive FlagKind where
  | switch
  | text (default : String)
  | integer (default : Int)
  deriving DecidableEq, Repr

/-- The declaration of a flag. -/
structure Flag where
  name : String
  kind : FlagKind
  /-- What the usage calls the flag's value. -/
  valueName : String
  usage : String
  deriving DecidableEq, Repr

inductive FlagValue where
  | switch (on : Bool)
  | text (s : String)
  | integer (n : Int)
  deriving DecidableEq, Repr

/-! ## Usage -/

namespace Flag

/-- The flag's default as the usage shows it; a default that is empty or zero goes unsaid. -/
def defaultText (f : Flag) : String :=
  match f.kind with
  | .switch => ""
  | .text default => if default.isEmpty then "" else s!" (default {Text.quoted default})"
  | .integer default => if default = 0 then "" else s!" (default {Text.decimal default})"

/-- The lines about the flag in the usage.  The explanation of a short switch stands on its line. -/
def usageText (f : Flag) : String :=
  let head := "  -" ++ f.name ++ (if f.valueName.isEmpty then "" else " " ++ f.valueName)
  head ++ (if head.length ≤ 4 then "\t" else "\n    \t") ++ f.usage ++ f.defaultText ++ "\n"

end Flag

/-- The usage of several flags, in the order of their names. -/
def flagsUsage (flags : List Flag) : String :=
  String.join ((flags.mergeSort fun a b => a.name ≤ b.name).map (·.usageText))

/-! ## Parsing -/

inductive FlagFault where
  /-- Help was asked for, and there is no flag of that name. -/
  | help
  | badForm (argument : String)
  | undefined (name : String)
  | badSwitch (value name : String)
  | missingValue (name : String)
  | badInteger (value name : String) (why : IntegerFault)
  deriving DecidableEq, Repr

/-- The fault in words, unless help was asked for. -/
def FlagFault.message? : FlagFault → Option String
  | help => none
  | badForm argument => some s!"bad flag syntax: {argument}"
  | undefined name => some s!"flag provided but not defined: -{name}"
  | badSwitch value name =>
    some s!"invalid boolean value {Text.quoted value} for -{name}: parse error"
  | missingValue name => some s!"flag needs an argument: -{name}"
  | badInteger value name why =>
    some s!"invalid value {Text.quoted value} for flag -{name}: {why.message}"

/-- What arguments say: the flags in the order given, and the remaining arguments. -/
structure Arguments where
  given : List (String × FlagValue)
  rest : List String
  deriving DecidableEq, Repr

namespace Arguments

/-- The value that a flag was given last. -/
def value? (a : Arguments) (name : String) : Option FlagValue :=
  (a.given.reverse.find? (·.1 = name)).map (·.2)

def switch? (a : Arguments) (name : String) : Option Bool :=
  match a.value? name with
  | some (.switch on) => some on
  | _ => none

def text? (a : Arguments) (name : String) : Option String :=
  match a.value? name with
  | some (.text s) => some s
  | _ => none

def integer? (a : Arguments) (name : String) : Option Int :=
  match a.value? name with
  | some (.integer n) => some n
  | _ => none

/-- A switch that is off unless it was turned on. -/
def isOn (a : Arguments) (name : String) : Bool := (a.switch? name).getD false

/-- The arguments with one more flag in front. -/
def withFlag (name : String) (value : FlagValue) (a : Arguments) : Arguments :=
  { a with given := (name, value) :: a.given }

end Arguments

/-- What one argument is to the flag parser. -/
inductive ArgumentForm where
  /-- Not a flag; it and everything after it remain. -/
  | plain
  /-- The end of the flags, itself dropped. -/
  | terminator
  | bad
  | flag (name : String) (value : Option String)
  deriving DecidableEq, Repr

/-- The name and value of a flag, parted at the first equals sign that is not at the start. -/
def splitValue : List Char → String × Option String
  | [] => ("", none)
  | c :: cs =>
    let name := String.ofList (c :: cs.takeWhile (· ≠ '='))
    match cs.dropWhile (· ≠ '=') with
    | [] => (name, none)
    | _ :: value => (name, some (String.ofList value))

/-- A flag without its dashes. -/
def flagForm (body : List Char) : ArgumentForm :=
  match body with
  | [] => .bad
  | c :: _ =>
    if c = '-' ∨ c = '=' then .bad
    else
      let (name, value) := splitValue body
      .flag name value

def argumentForm (argument : String) : ArgumentForm :=
  match argument.toList with
  | ['-', '-'] => .terminator
  | '-' :: '-' :: body => flagForm body
  | ['-'] => .plain
  | '-' :: body => flagForm body
  | _ => .plain

/-- The spellings of the two states of a switch. -/
def switchValue? (s : String) : Option Bool :=
  if ["1", "t", "T", "TRUE", "true", "True"].contains s then some true
  else if ["0", "f", "F", "FALSE", "false", "False"].contains s then some false
  else none

/-- The value that a text gives a flag. -/
def flagValue (f : Flag) (value : String) : Except FlagFault FlagValue :=
  match f.kind with
  | .switch =>
    match switchValue? value with
    | some on => .ok (.switch on)
    | none => .error (.badSwitch value f.name)
  | .text _ => .ok (.text value)
  | .integer _ =>
    match Integer.parse value with
    | .ok n => .ok (.integer n)
    | .error why => .error (.badInteger value f.name why)

/-- The declaration of a flag by name.  Asking for help is no mistake, even if no such flag is
declared. -/
def declared (flags : List Flag) (name : String) : Except FlagFault Flag :=
  match flags.find? (·.name = name) with
  | some f => .ok f
  | none => .error (if name = "help" ∨ name = "h" then .help else .undefined name)

/-- Parses arguments against the declared flags. -/
def parseArguments (flags : List Flag) : List String → Except FlagFault Arguments
  | [] => .ok ⟨[], []⟩
  | [last] =>
    match argumentForm last with
    | .plain => .ok ⟨[], [last]⟩
    | .terminator => .ok ⟨[], []⟩
    | .bad => .error (.badForm last)
    | .flag name value => do
      let f ← declared flags name
      match f.kind, value with
      | .switch, none => return ⟨[(name, .switch true)], []⟩
      | _, some s => return ⟨[(name, ← flagValue f s)], []⟩
      | _, none => throw (.missingValue name)
  | first :: second :: rest =>
    match argumentForm first with
    | .plain => .ok ⟨[], first :: second :: rest⟩
    | .terminator => .ok ⟨[], second :: rest⟩
    | .bad => .error (.badForm first)
    | .flag name value => do
      let f ← declared flags name
      match f.kind, value with
      | .switch, none =>
        Arguments.withFlag name (.switch true) <$> parseArguments flags (second :: rest)
      | _, some s => do
        let v ← flagValue f s
        Arguments.withFlag name v <$> parseArguments flags (second :: rest)
      | _, none => do
        let v ← flagValue f second
        Arguments.withFlag name v <$> parseArguments flags rest

end RvCodec.Cli
