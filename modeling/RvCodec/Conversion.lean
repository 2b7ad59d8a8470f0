import RvCodec.Assembler
import RvCodec.Disassembler

/-!
# Conversions

Assembling and disassembling from a command's point of view: a text of Unicode characters goes in,
and out come a text, the width of the registers, and the details for whoever asks for them.
-/

set_option autoImplicit false

namespace RvCodec

inductive Direction where
  | assembling
  | disassembling
  deriving DecidableEq, Repr

/-- The outcome of a conversion in either direction. -/
inductive Conversion where
  | assembly (a : Assembly)
  | disassembly (d : Disassembly)
  deriving DecidableEq, Repr

namespace Conversion

def output : Conversion → String
  | assembly a => a.output
  | disassembly d => d.output

def xlen : Conversion → Nat
  | assembly a => a.xlen
  | disassembly d => d.xlen

def mode : Conversion → Mode
  | assembly a => a.mode
  | disassembly d => d.mode

/-!
## Details

A result shown in full.  What a command shows is up to its host; this is the form that the hosts of
this library use.
-/

/-- A text value in the details: its size in bytes unless it is empty, and its quoted form. -/
def stringDetail (s : String) : String :=
  "(string) " ++ (if s.isEmpty then "" else s!"(len={Text.numeral 10 s.utf8ByteSize}) ")
    ++ Text.quoted s

/-- A list value in the details, one element a line. -/
def listDetail (type : String) (elements : List String) : String :=
  "([]" ++ type ++ ") " ++
    if elements.isEmpty then "<nil>"
    else s!"(len={Text.numeral 10 elements.length}) \x7b\n"
      ++ ",\n".intercalate (elements.map ("  " ++ ·)) ++ "\n \x7d"

/-- The name of the result's type in the details, and the details of its own. -/
def ownDetail : Conversion → String × String
  | assembly a =>
    ("asm", "Words: " ++ listDetail "uint32"
      (a.words.map fun w => "(uint32) " ++ Text.numeral 10 w.toNat))
  | disassembly d => ("disasm", "Lines: " ++ listDetail "string" (d.lines.map stringDetail))

def detail (t : Conversion) : String :=
  let (type, own) := t.ownDetail
  "(*" ++ type ++ ".Result)(PTR)(\x7b\n"
    ++ " Output: " ++ stringDetail t.output ++ ",\n"
    ++ " " ++ own ++ ",\n"
    ++ " XLEN: (isa.XLEN) " ++ Text.numeral 10 t.xlen ++ ",\n"
    ++ " Mode: (isa.Mode) " ++ t.mode.name ++ "\n"
    ++ "\x7d)\n"

end Conversion

def convert (d : Direction) (source : String) (opts : Options) : Except Error Conversion :=
  match d with
  | .assembling => .assembly <$> assemble source opts
  | .disassembling => .disassembly <$> disassemble source opts

end RvCodec
