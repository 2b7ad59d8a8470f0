import RvCodec.Instruction

/-!
# Encodings

An encoding is an instruction with all its operands filled in: one value for each operand, and the
ordering bits of an atomic instruction.  It stands between text and word: assembling reads an
encoding from tokens and lays it out as a word, disassembling takes it from a word and writes it as
text.
-/

set_option autoImplicit false

namespace RvCodec

/-- What an operand holds. -/
inductive Value where
  | field (v : Word)
  | number (v : Int)
  /-- The main immediate as an offset, and the contents of the base register's field. -/
  | memory (offset : Int) (base : Word)
  /-- Nothing that is kept in the word. -/
  | nothing
  deriving DecidableEq, Repr

namespace BaseRegister

/-- The word bits of a base register's field. -/
def place (v : Word) : BaseRegister → Word
  | integer f | shortInteger f => f.put v
  | stackPointer => 0

def take (w : Word) : BaseRegister → Word
  | integer f | shortInteger f => f.get w
  | stackPointer => 0

end BaseRegister

namespace Operand

/-- The word bits of an operand's value. -/
def place (i : Instruction) : Operand → Value → Word
  | integer f _ _, .field v | float f, .field v | vector f, .field v => f.put v
  | shortInteger f, .field v | shortFloat f, .field v | address f, .field v => f.put v
  | csr f, .field v | smallNumber f, .field v | fenceSet f, .field v => f.put v
  | roundingMode f, .field v | vectorMask f, .field v => f.put v
  | vtype, .field v => i.immediate.layout.pack v
  | immediate _, .number v => i.immediate.layout.pack (Word.ofInt v)
  | memory base, .memory offset v =>
    i.immediate.layout.pack (Word.ofInt offset) ||| base.place v
  | _, _ => 0

def take (i : Instruction) (w : Word) : Operand → Value
  | integer f _ _ | float f | vector f | shortInteger f | shortFloat f | address f => .field (f.get w)
  | csr f | smallNumber f | fenceSet f | roundingMode f | vectorMask f => .field (f.get w)
  | vtype => .field (Word.ofInt (i.immediate.decode w))
  | immediate _ => .number (i.immediate.decode w)
  | memory base => .memory (i.immediate.decode w) (base.take w)
  | stackPointer | mergeMask | unassigned => .nothing

end Operand

/-- An instruction with its operands filled in. -/
structure Encoding where
  instruction : Instruction
  /-- The ordering bits of an atomic instruction. -/
  order : Word
  /-- The values of the operands, in the order in which they are written. -/
  values : List Value
  deriving DecidableEq, Repr

namespace Encoding

def word (e : Encoding) : Word :=
  MemoryOrder.set
    (e.instruction.test |||
      Word.union (List.zipWith (Operand.place e.instruction) e.instruction.operands e.values))
    e.order

/-- A word that the instruction covers, taken apart. -/
def ofWord (i : Instruction) (w : Word) : Encoding :=
  ⟨i, if i.isAtomic then MemoryOrder.get w else 0, i.operands.map (Operand.take i w)⟩

/-- The mnemonic with its ordering ending. -/
def mnemonic (e : Encoding) : String := e.instruction.name ++ MemoryOrder.ending e.order

end Encoding

end RvCodec
