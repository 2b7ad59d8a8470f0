import RvCodec.Fault
import RvCodec.Text.Case
import RvCodec.Text.Class

/-!
# Registers

There are thirty-two integer, floating-point and vector registers.  Each has a plain name, its file's
letter followed by its number, and the first two files have the names of the calling convention too.
Names are read in any case and with blanks around them.

The embedded variant has the first sixteen integer registers only.  Many 16-bit instructions have
three bits for a register and reach the registers 8 to 15.
-/

set_option autoImplicit false

namespace RvCodec

namespace Register

/-! ## Names -/

/-- The calling convention's names of the integer registers, in order. -/
def integerNames : List String :=
  ["zero", "ra", "sp", "gp", "tp", "t0", "t1", "t2",
   "s0", "s1", "a0", "a1", "a2", "a3", "a4", "a5",
   "a6", "a7", "s2", "s3", "s4", "s5", "s6", "s7",
   "s8", "s9", "s10", "s11", "t3", "t4", "t5", "t6"]

def floatNames : List String :=
  ["ft0", "ft1", "ft2", "ft3", "ft4", "ft5", "ft6", "ft7",
   "fs0", "fs1", "fa0", "fa1", "fa2", "fa3", "fa4", "fa5",
   "fa6", "fa7", "fs2", "fs3", "fs4", "fs5", "fs6", "fs7",
   "fs8", "fs9", "fs10", "fs11", "ft8", "ft9", "ft10", "ft11"]

/-- The number a calling-convention name stands for; `fp` is a second name of `s0`. -/
def named? : RegisterFile → String → Option Nat
  | .integer, name => if name = "fp" then some 8 else integerNames.idxOf? name
  | .float, name => floatNames.idxOf? name
  | .vector, _ => none

/-- A register number below thirty-two, written without a superfluous zero. -/
def ordinal? (digits : List Char) : Option Nat :=
  if 1 < digits.length ∧ digits.head? = some '0' then none
  else (Text.readNat? 10 digits).filter (· < 32)

/-- The number in a plain name, the file's letter and a number. -/
def numbered? (file : RegisterFile) : List Char → Option Nat
  | c :: digits => if c = file.letter then ordinal? digits else none
  | [] => none

/-- The register a name in lower case stands for. -/
def find? (file : RegisterFile) (name : String) : Option Nat :=
  (named? file name).or (numbered? file name.toList)

/-! ## Reading -/

/-- The number of the register that a text names. -/
def parse (file : RegisterFile) (text : String) : Except Fault Word :=
  match find? file (Text.lower (Text.trim text)) with
  | some n => .ok (BitVec.ofNat 32 n)
  | none => .error (.unknownRegister file text)

/-- The number of an integer register that the variant in use has. -/
def parseInteger (embedded : Bool) (text : String) : Except Fault Word := do
  let r ← parse .integer text
  if embedded && 15#32 < r then throw (.registerNotEmbedded text)
  return r

/-- The three-bit form of a register from 8 to 15. -/
def shorten (file : RegisterFile) (text : String) (r : Word) : Except Fault Word :=
  if 8#32 ≤ r ∧ r ≤ 15#32 then .ok (r - 8) else .error (.registerNotShort file text)

def parseShortInteger (embedded : Bool) (text : String) : Except Fault Word := do
  shorten .integer text (← parseInteger embedded text)

def parseShortFloat (text : String) : Except Fault Word := do
  shorten .float text (← parse .float text)

/-- The register that a three-bit form stands for. -/
def lengthen (v : Word) : Word := (v &&& 7) + 8

/-! ## Writing -/

/-- The plain name of a register; only the low five bits of its number count. -/
def text (file : RegisterFile) (r : Word) : String :=
  file.letter.toString ++ Text.numeral 10 (r.toNat % 32)

/-- The calling convention's name of an integer register. -/
def conventionName (r : Word) : String := integerNames.getD (r.toNat % 32) ""

end Register

end RvCodec
