import RvCodec.Batch
import RvCodec.Cli.Host
import RvCodec.Cli.Listing
import RvCodec.Cli.Settings
import RvCodec.Conversion

/-!
# Commands

What each command does with its arguments: convert files or standard input, or list instructions.
A command gives what it writes and how it ends.  Reports on standard error carry the name of the
command; explanations of wrong flags do not.
-/

set_option autoImplicit false

namespace RvCodec.Cli

/-! ## Outcomes -/

/-- What a program writes, and its exit code. -/
structure Outcome where
  exit : Nat
  stdout : String
  stderr : String
  deriving DecidableEq, Repr

namespace Outcome

/-- Nothing but a text on standard output. -/
def printed (stdout : String) : Outcome := ⟨0, stdout, ""⟩

/-- A program that could not make sense of its arguments and explains its usage. -/
def usage (exit : Nat) (fault : Option FlagFault) (usage : String) : Outcome :=
  ⟨exit, "", ((fault.bind (·.message?)).map (· ++ "\n")).getD "" ++ usage⟩

end Outcome

/-- A report on standard error under the name of a command.  A message that already ends its line is
not given another line end. -/
def logLine (command message : String) : String :=
  command ++ ": " ++ message ++ (if message.toList.getLast? = some '\n' then "" else "\n")

/-- A command that fails. -/
def failed (command : String) (f : Failure) : Outcome := ⟨1, "", logLine command f.message⟩

/-! ## Converting -/

/-- The flag that asks for the usage. -/
def helpFlag : Flag := ⟨"h", .switch, "", "Show this message and exit."⟩

def convertFlags (jobs : Int) : List Flag :=
  settingFlags jobs ++
    [helpFlag,
     ⟨"dump", .switch, "", "Print the detailed result after the output."⟩,
     ⟨"copy", .switch, "", "Copy the output to the clipboard."⟩,
     ⟨"v", .switch, "", "Report the XLEN each input needed."⟩]

def convertUsage (program command : String) (jobs : Int) : String :=
  command ++ ": Usage:\n  " ++ program ++ " " ++ command ++ " [OPTIONS] [FILE...]\n\n"
    ++ command ++ ": With no files, " ++ command
    ++ " reads standard input, one line at a time if it is a terminal.\n\n"
    ++ flagsUsage (convertFlags jobs)

/-- The conversion of one file, given what reading it gave. -/
def convertFile (d : Direction) (opts : Options) (path : String)
    (contents : Except FileFault String) : Except Failure Conversion :=
  match contents with
  | .error fault => .error (.report s!"failed to read {path}: {fault.message}")
  | .ok source =>
    match convert d source opts with
    | .ok t => .ok t
    | .error e => .error (.report s!"{path}: {e.message}")

/-- The conversions of several files, in the order of the files. -/
def convertFiles (d : Direction) (opts : Options) (jobs : Int)
    (files : List (String × Except FileFault String)) : Except Failure (List Conversion) :=
  Batch.run jobs (.report "context canceled")
    (files.map fun (path, contents) => convertFile d opts path contents)

section

variable {m : Type → Type} [Monad m]

/-- What is printed of one conversion, under the name of its file if there are several. -/
def resultText (host : Host m) (dump : Bool) (heading : Option String) (t : Conversion) : String :=
  (heading.map fun path => "# " ++ path ++ "\n").getD ""
    ++ (if t.output.isEmpty then "" else t.output ++ "\n")
    ++ (if dump then host.dump t else "")

/-- What a converting command writes about its results.  The outputs are copied when everything has
been printed. -/
def convertOutcome (host : Host m) (command : String) (a : Arguments) (results : List Conversion) :
    m Outcome := do
  let headings := if 1 < a.rest.length then a.rest.map some else results.map fun _ => none
  let stdout := String.join (List.zipWith (resultText host (a.isOn "dump")) headings results)
  let stderr := String.join (results.map fun t =>
    if a.isOn "v" then logLine command s!"XLEN {Text.numeral 10 t.xlen} ({t.mode.name})" else "")
  if a.isOn "copy" then
    match ← host.copy ("\n".intercalate ((results.map (·.output)).filter (!·.isEmpty))) with
    | .ok () => return ⟨0, stdout, stderr⟩
    | .error why => return ⟨1, stdout, stderr ++ logLine command s!"clipboard unavailable: {why}"⟩
  else return ⟨0, stdout, stderr⟩

/-- The results of a converting command: of the named files, or of standard input. -/
def convertInputs (host : Host m) (d : Direction) (opts : Options) (jobs : Int)
    (paths : List String) : m (Except Failure (List Conversion)) := do
  if paths.isEmpty then
    match ← host.readInput with
    | .error why => return .error (.report s!"failed to read standard input: {why}")
    | .ok source =>
      match convert d source opts with
      | .ok t => return .ok [t]
      | .error e => return .error (.error e)
  else
    let files ← paths.mapM fun path => do return (path, ← host.readFile path)
    return convertFiles d opts jobs files

/-- The settings that arguments mean; the config file is read only if one is named. -/
def readSettings (host : Host m) (jobs : Int) (a : Arguments) : m (Except Failure Settings) := do
  match Settings.configPath? a with
  | none => return Settings.ofArguments jobs a (fun _ => .ok "") host.decodeConfig
  | some path =>
    let contents ← host.readFile path
    return Settings.ofArguments jobs a (fun _ => contents.mapError (·.message)) host.decodeConfig

def convertCommand (host : Host m) (program command : String) (d : Direction) (jobs : Int)
    (args : List String) : m Outcome := do
  let usage := convertUsage program command jobs
  match parseArguments (convertFlags jobs) args with
  | .error fault => return .usage 2 fault usage
  | .ok a =>
    if a.isOn "h" then return .usage 2 none usage
    match ← readSettings host jobs a with
    | .error f => return failed command f
    | .ok settings =>
      match settings.options with
      | .error f => return failed command f
      | .ok opts =>
        let session ← if a.rest.isEmpty then host.converse (command ++ ": ") d opts else pure none
        match session with
        | some none => return .printed ""
        | some (some f) => return failed command f
        | none =>
          match ← convertInputs host d opts settings.jobs a.rest with
          | .error f => return failed command f
          | .ok results => convertOutcome host command a results

end

/-! ## Listing -/

def tableFlags : List Flag :=
  [helpFlag,
   ⟨"ext", .text "", "letters",
     "Only list instructions of the given extension letters, such as \"IM\"."⟩,
   ⟨"xlen", .text "auto", "string", "Only list instructions legal at the given XLEN."⟩]

def tableUsage (program command : String) : String :=
  command ++ ": Usage:\n  " ++ program ++ " " ++ command ++ " [OPTIONS]\n\n" ++ flagsUsage tableFlags

def tableCommand (program command : String) (args : List String) : Outcome :=
  match parseArguments tableFlags args with
  | .error fault => .usage 2 fault (tableUsage program command)
  | .ok a =>
    if a.isOn "h" || !a.rest.isEmpty then .usage 2 none (tableUsage program command)
    else
      match Xlen.parse ((a.text? "xlen").getD "auto") with
      | .error f => failed command f
      | .ok xlen => .printed (Listing.text ((a.text? "ext").getD "") xlen)

end RvCodec.Cli
