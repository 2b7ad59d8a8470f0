import RvCodec.Reference.Immediates
import RvCodec.Reference.Instructions

/-!
# The reference

The three documents that describe a table: the opcode index, the layouts of immediates and the list
of instructions.
-/

set_option autoImplicit false

namespace RvCodec.Reference

/-- A document of the reference. -/
inductive Document where
  | opcodes
  | immediates
  | instructions
  deriving DecidableEq, Repr

namespace Document

/-- The documents in the order in which they are written. -/
def all : List Document := [opcodes, immediates, instructions]

def name : Document → String
  | opcodes => "opcodes"
  | immediates => "immediates"
  | instructions => "instructions"

def fileName (d : Document) : String := d.name ++ ".md"

def named? (s : String) : Option Document := all.find? (·.name = s)

def text (t : Table) : Document → String
  | opcodes => opcodeIndex t
  | immediates => immediateIndex t
  | instructions => instructionIndex t

end Document

end RvCodec.Reference
