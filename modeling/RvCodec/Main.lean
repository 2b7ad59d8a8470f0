import RvCodec.Cli.Session
import RvCodec.Cli.Tool

/-!
# The executable

Runs a program on the machine: the files are real files, output goes to the standard streams, and a
session is held line by line.  Everything that decides anything is elsewhere; this module only
carries out what was decided.

The executable is the reference writer if its name ends in `reference`, and the codec otherwise.
-/

set_option autoImplicit false

namespace RvCodec.Cli.Executable

/-- The reason of a failed system call, as the system words it. -/
def reason : IO.Error → String
  | .noFileOrDirectory _ _ details => details
  | .inappropriateType _ _ details => details
  | .permissionDenied _ _ details => details
  | .alreadyExists _ _ details => details
  | e => toString e

/-- Carries out a system call and turns its failure into a value. -/
def attempt {α : Type} (action path : String) (call : IO α) : IO (Except FileFault α) := do
  try
    return .ok (← call)
  catch e =>
    return .error ⟨action, path, Text.lower (reason e)⟩

partial def readAll (input : IO.FS.Stream) (soFar : ByteArray) : IO ByteArray := do
  let block ← input.read 65536
  if block.isEmpty then return soFar else readAll input (soFar ++ block)

/-- Holds a session at a terminal. -/
partial def converse (label : String) (d : Direction) (opts : Options) : IO (Option Failure) := do
  IO.eprint Session.prompt
  let line ← (← IO.getStdin).getLine
  if line.isEmpty then
    IO.eprint "\n"
    return none
  let line := (Session.inputLines line).headD ""
  if Session.bufferSize ≤ line.utf8ByteSize then
    IO.eprint "\n"
    return some Session.tooLong
  let reply := Session.reply label d opts line
  IO.print reply.stdout
  IO.eprint reply.stderr
  converse label d opts

/-- The machine as a host.  There is no access to its clipboard. -/
def host : Host IO where
  readFile path := attempt "open" path (IO.FS.readFile path)
  makeDirs path := attempt "mkdir" path (IO.FS.createDirAll path)
  writeFile path contents := attempt "open" path (IO.FS.writeFile path contents)
  readInput := do
    match String.fromUTF8? (← readAll (← IO.getStdin) .empty) with
    | some text => return .ok text
    | none => return .error "not UTF-8 text"
  converse label d opts := do
    if ← (← IO.getStdin).isTty then return some (← converse label d opts) else return none
  copy _ := return .error "not available"
  decodeConfig := ConfigFile.decode
  dump := Conversion.detail
  dumpTable t := Text.unlines (t.instructions.map (·.synopsis))

def defaultJobs : Int := 1

/-- Runs the program of a name. -/
def run (program : String) (args : List String) : IO Outcome :=
  if "reference".toList.isSuffixOf program.toList then runReferenceWriter host program args
  else runCodec host program defaultJobs args

end RvCodec.Cli.Executable

def main (args : List String) : IO UInt32 := do
  let program := (← IO.appPath).fileName.getD "rvcodec"
  let outcome ← RvCodec.Cli.Executable.run program args
  IO.print outcome.stdout
  IO.eprint outcome.stderr
  return outcome.exit.toUInt32
