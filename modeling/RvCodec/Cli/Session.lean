import RvCodec.Conversion

/-!
# Interactive sessions

At a terminal, lines are converted one at a time, each on its own.  A prompt comes before each line;
an error is reported and the session goes on.  A session is given here as a function of the whole
input, which fixes what is written to standard output and to standard error.

A line ends at a line feed, and a carriage return before it does not count.  A line that does not fit
in the input buffer of 65536 bytes ends the session.
-/

set_option autoImplicit false

namespace RvCodec.Cli

namespace Session

/-! ## Lines of input -/

/-- The size of the input buffer in bytes. -/
def bufferSize : Nat := 65536

/-- The failure of a session whose input has a line that does not fit in the buffer. -/
def tooLong : Failure := .report "bufio.Scanner: token too long"

/-- The lines of the input, without their line feeds.  After the last line feed there is a line only
if anything follows it. -/
def inputLines (input : String) : List String :=
  let pieces := Text.splitAt '\n' input
  if pieces.getLast? = some "" then pieces.dropLast else pieces

/-- A line without one carriage return at its end. -/
def withoutReturn (line : String) : String :=
  let cs := line.toList
  if cs.getLast? = some '\r' then String.ofList cs.dropLast else line

/-! ## Replies -/

/-- What is written in reply to a line. -/
structure Reply where
  stdout : String
  stderr : String
  deriving DecidableEq, Repr

/-- The reply to one line; a report of an error carries a label in front. -/
def reply (label : String) (d : Direction) (opts : Options) (line : String) : Reply :=
  match convert d (withoutReturn line) opts with
  | .ok t => ⟨if t.output.isEmpty then "" else t.output ++ "\n", ""⟩
  | .error e => ⟨"", label ++ e.message ++ "\n"⟩

def prompt : String := "> "

/-- What a session writes, and whether it came to the end of the input. -/
structure Transcript where
  stdout : String
  stderr : String
  failure : Option Failure
  deriving DecidableEq, Repr

/-- The transcript of a session over these lines of input. -/
def overLines (label : String) (d : Direction) (opts : Options) : List String → Transcript
  | [] => ⟨"", prompt ++ "\n", none⟩
  | line :: rest =>
    if bufferSize ≤ line.utf8ByteSize then
      ⟨"", prompt ++ "\n", some tooLong⟩
    else
      let r := reply label d opts line
      let t := overLines label d opts rest
      ⟨r.stdout ++ t.stdout, prompt ++ r.stderr ++ t.stderr, t.failure⟩

def run (label : String) (d : Direction) (opts : Options) (input : String) : Transcript :=
  overLines label d opts (inputLines input)

end Session

end RvCodec.Cli
