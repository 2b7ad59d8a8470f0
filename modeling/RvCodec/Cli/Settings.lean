import RvCodec.Cli.ConfigFile
import RvCodec.Cli.Flag
import RvCodec.Options

/-!
# Settings of a command

The settings of a conversion come from three places: flags on the command line, a config file, and
defaults.  A flag that was given wins over the file, even if it says what the default says, and the
file wins over the defaults.

Flags are kept as `Choices`, in which a flag that was not given shows.  A decoded file has settings
only, where an empty width and a number of jobs of zero count as unsaid.  Settings are texts as they
were given; only `Settings.options` checks them.
-/

set_option autoImplicit false

namespace RvCodec.Cli

/-! ## Flags -/

/-- The flag that names the config file. -/
def configFlag : Flag :=
  ⟨"config", .text "", "file", "Read options from the given TOML file."⟩

/-- The flags of the settings, given how many files are worked on at once by default. -/
def settingFlags (jobs : Int) : List Flag :=
  [configFlag,
   ⟨"xlen", .text "auto", "string", "Register width: auto, 32, 64 or 128."⟩,
   ⟨"e", .switch, "", "Restrict the integer registers to x0-x15 (RV32E/RV64E)."⟩,
   ⟨"base", .text "hex", "string", "Number base of disassembled immediates: hex or dec."⟩,
   ⟨"no-f", .switch, "", "Disable the single-precision floating-point extension."⟩,
   ⟨"no-d", .switch, "", "Disable the double-precision floating-point extension."⟩,
   ⟨"no-q", .switch, "", "Disable the quad-precision floating-point extension."⟩,
   ⟨"j", .integer jobs, "int", "Number of input files to process at once."⟩]

/-- What the flags say. -/
def Choices.ofArguments (a : Arguments) : Choices :=
  { xlen := a.text? "xlen", embedded := a.switch? "e", base := a.text? "base",
    noSingle := a.switch? "no-f", noDouble := a.switch? "no-d", noQuad := a.switch? "no-q",
    jobs := a.integer? "j" }

/-! ## Settings -/

namespace Settings

/-- The settings without a config file. -/
def ofFlags (jobs : Int) (flags : Choices) : Settings :=
  { xlen := flags.xlen.getD "auto", embedded := flags.embedded.getD false,
    base := flags.base.getD "hex", noSingle := flags.noSingle.getD false,
    noDouble := flags.noDouble.getD false, noQuad := flags.noQuad.getD false,
    jobs := flags.jobs.getD jobs }

/-- The settings with a config file. -/
def merge (jobs : Int) (flags : Choices) (file : Settings) : Settings :=
  { xlen := flags.xlen.getD (if file.xlen = "" then "auto" else file.xlen),
    embedded := flags.embedded.getD file.embedded,
    base := flags.base.getD file.base,
    noSingle := flags.noSingle.getD file.noSingle,
    noDouble := flags.noDouble.getD file.noDouble,
    noQuad := flags.noQuad.getD file.noQuad,
    jobs := flags.jobs.getD (if file.jobs = 0 then jobs else file.jobs) }

/-- The options that the settings mean. -/
def options (s : Settings) : Except Failure Options := do
  let xlen ← Xlen.parse s.xlen
  let base ← NumberBase.parse s.base
  return { xlen, embedded := s.embedded, base, noSingle := s.noSingle, noDouble := s.noDouble,
           noQuad := s.noQuad }

def configPath? (a : Arguments) : Option String := (a.text? "config").filter (· ≠ "")

/-- The settings in a config file, given what reading it gave.  Every key has to be known. -/
def load (decode : ConfigDecoder) (path : String) (contents : Except String String) :
    Except Failure Settings :=
  match contents >>= decode with
  | .error why => .error (.report s!"failed to parse config {path}: {why}")
  | .ok (file, []) => .ok file
  | .ok (_, key :: _) => .error (.report s!"unknown key {Text.quoted key} in config {path}")

/-- The settings that arguments mean, given what reading a named config file gives and what decodes
it. -/
def ofArguments (jobs : Int) (a : Arguments) (read : String → Except String String)
    (decode : ConfigDecoder := ConfigFile.decode) : Except Failure Settings :=
  let flags := Choices.ofArguments a
  match configPath? a with
  | none => .ok (ofFlags jobs flags)
  | some path => merge jobs flags <$> load decode path (read path)

end Settings

end RvCodec.Cli
