import RvCodec.Cli.Command
import RvCodec.Cli.Registry
import RvCodec.Reference

/-!
# Programs

There are two programs: the codec with its commands, and the one that checks the instruction
table and writes the reference.
-/

set_option autoImplicit false

namespace RvCodec.Cli

/-! ## The codec -/

inductive Action where
  | convert (d : Direction)
  | list
  deriving DecidableEq, Repr

def commands : Registry Action :=
  [⟨"assemble", "Translate assembly into machine words.", .convert .assembling⟩,
   ⟨"disassemble", "Translate machine words into assembly.", .convert .disassembling⟩,
   ⟨"table", "List the supported instructions.", .list⟩]

def codecUsage (program : String) : String :=
  "Usage\n  " ++ program ++ " COMMAND [OPTIONS]\n\nCommands:\n" ++ commands.usageText

section

variable {m : Type → Type} [Monad m]

def runCommand (host : Host m) (program : String) (jobs : Int) (c : Command Action)
    (args : List String) : m Outcome :=
  match c.action with
  | .convert d => convertCommand host program c.name d jobs args
  | .list => return tableCommand program c.name args

/-- The codec. -/
def runCodec (host : Host m) (program : String) (jobs : Int) (args : List String) :
    m Outcome :=
  let usage := codecUsage program
  match parseArguments [helpFlag] args with
  | .error fault => return .usage 2 fault usage
  | .ok a =>
    match a.rest with
    | [] => return .usage 2 none usage
    | name :: rest =>
      match if a.isOn "h" then none else commands.find? name with
      | none => return .usage 2 none usage
      | some c => runCommand host program jobs c rest

/-! ## The reference writer -/

def referenceFlags : List Flag :=
  [⟨"dump", .switch, "", "Dump the compiled instruction table."⟩,
   ⟨"o", .text "generated/reference", "dir", "Write the reference into dir."⟩]

def referenceUsage (program : String) : String :=
  "Usage of " ++ program ++ ":\n" ++ flagsUsage referenceFlags

/-- Writes the documents of the reference, up to the first that cannot be written. -/
def writeDocuments (host : Host m) (dir : String) (t : Table) :
    List Reference.Document → m (Except FileFault Unit)
  | [] => return .ok ()
  | doc :: rest => do
    match ← host.writeFile (Path.join dir doc.fileName) (doc.text t) with
    | .error fault => return .error fault
    | .ok () => writeDocuments host dir t rest

/-- Writes the reference into a directory. -/
def writeReference (host : Host m) (dir : String) (t : Table) : m (Except FileFault Unit) := do
  match ← host.makeDirs dir with
  | .error fault => return .error fault
  | .ok () => writeDocuments host dir t Reference.Document.all

/-- The complaint about a table with ambiguities, if it has any. -/
def ambiguityReport? (t : Table) : Option String :=
  match t.ambiguities with
  | [] => none
  | found =>
    some (Text.unlines (found.map (·.message)
      ++ [s!"instruction table has {Text.numeral 10 found.length} ambiguous encodings"]))

def runReferenceWriter (host : Host m) (program : String) (args : List String) : m Outcome := do
  match parseArguments referenceFlags args with
  | .error fault =>
    return .usage (if fault = .help then 0 else 2) fault (referenceUsage program)
  | .ok a =>
    match ambiguityReport? Table.default with
    | some report => return ⟨1, "", report⟩
    | none =>
      let listing := if a.isOn "dump" then host.dumpTable Table.default else ""
      match ← writeReference host ((a.text? "o").getD "generated/reference") Table.default with
      | .error fault => return ⟨1, listing, fault.message ++ "\n"⟩
      | .ok () => return .printed listing

end

end RvCodec.Cli
