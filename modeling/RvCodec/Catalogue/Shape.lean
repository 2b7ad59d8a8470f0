import RvCodec.Instruction

/-!
# Shapes of instructions

The catalogue describes several hundred instructions that differ in little.  This module names the
major opcodes and quadrants and gives the common shapes, each a function from what distinguishes an
instruction of that shape to its description.
-/

set_option autoImplicit false

namespace RvCodec.Catalogue

/-! ## Major opcodes and quadrants -/

def opLoad : BitVec 8 := 0b0000011
def opLoadFloat : BitVec 8 := 0b0000111
def opMiscMem : BitVec 8 := 0b0001111
def opImm : BitVec 8 := 0b0010011
def opAuipc : BitVec 8 := 0b0010111
def opImm32 : BitVec 8 := 0b0011011
def opStore : BitVec 8 := 0b0100011
def opStoreFloat : BitVec 8 := 0b0100111
def opAtomic : BitVec 8 := 0b0101111
def opReg : BitVec 8 := 0b0110011
def opLui : BitVec 8 := 0b0110111
def opReg32 : BitVec 8 := 0b0111011
def opMadd : BitVec 8 := 0b1000011
def opMsub : BitVec 8 := 0b1000111
def opNmsub : BitVec 8 := 0b1001011
def opNmadd : BitVec 8 := 0b1001111
def opFloat : BitVec 8 := 0b1010011
def opVector : BitVec 8 := 0b1010111
def opImm64 : BitVec 8 := 0b1011011
def opBranch : BitVec 8 := 0b1100011
def opJalr : BitVec 8 := 0b1100111
def opJal : BitVec 8 := 0b1101111
def opSystem : BitVec 8 := 0b1110011
def opReg64 : BitVec 8 := 0b1111011

def quadrant0 : BitVec 8 := 0b00
def quadrant1 : BitVec 8 := 0b01
def quadrant2 : BitVec 8 := 0b10

/-! ## Constant fields -/

/-- A range of bits that have to be zero. -/
def zeroBits (top bottom : Nat) : FixedBits := ⟨BitRange.mask ⟨top, bottom⟩, 0⟩

/-- No destination register. -/
def zeroRd : FixedBits := zeroBits 11 7

/-- No first source register. -/
def zeroRs1 : FixedBits := zeroBits 19 15

end RvCodec.Catalogue

namespace RvCodec.Instruction

/-! ## Adjustments -/

/-- The instruction, from a width on. -/
def fromXlen (i : Instruction) (n : Nat) : Instruction := { i with minXlen := some n }

/-- The instruction, up to a width. -/
def upToXlen (i : Instruction) (n : Nat) : Instruction := { i with maxXlen := some n }

/-- The instruction as part of an extension. -/
def inExtension (i : Instruction) (e : Extension) : Instruction := { i with ext := e }

/-- The instruction with more constant bits. -/
def withFixed (i : Instruction) (b : FixedBits) : Instruction := { i with fixed := i.fixed.or b }

/-- The instruction with a constant second source register. -/
def withRs2 (i : Instruction) (v : Word) : Instruction := { i with fixedRs2 := some v }

/-- The instruction with a constant mask bit. -/
def withMaskBit (i : Instruction) (v : Word) : Instruction := { i with maskBit := some v }

/-- The instruction as one that moves a number of bytes. -/
def moving (i : Instruction) (bytes : Nat) : Instruction := { i with memBytes := bytes }

end RvCodec.Instruction

namespace RvCodec.Catalogue

/-! ## Shapes of the base instruction set -/

/-- Two source registers and a destination. -/
def regReg (name : String) (op : BitVec 8) (f3 f7 : Word) : Instruction :=
  { name, format := .r, opcode := op, form := .threeRegs, funct3 := f3, funct7 := f7, ext := .base }

/-- A source register, a signed twelve-bit immediate and a destination. -/
def regImm (name : String) (op : BitVec 8) (f3 : Word) : Instruction :=
  { name, format := .i, opcode := op, form := .regsImm, funct3 := f3, immBits := 12, ext := .base }

/-- A shift by a six-bit amount. -/
def shift6 (name : String) (op : BitVec 8) (f3 f6 : Word) : Instruction :=
  { name, format := .i, opcode := op, form := .shift, funct3 := f3, funct6 := f6, immBits := 6,
    unsigned := true, ext := .base }

/-- A shift by a seven-bit amount, of which narrower bases use the low six or five bits. -/
def shift7 (name : String) (op : BitVec 8) (f3 f5 : Word) : Instruction :=
  { name, format := .i, opcode := op, form := .shift, funct3 := f3, funct5 := f5, immBits := 7,
    unsigned := true, ext := .base }

/-- A word-sized shift by a five-bit amount. -/
def shift5 (name : String) (op : BitVec 8) (f3 f7 : Word) : Instruction :=
  { name, format := .i, opcode := op, form := .shift, funct3 := f3, funct7 := f7, immBits := 5,
    unsigned := true, ext := .base }

/-- One source register and a destination, with a constant in the place of the immediate. -/
def unary (name : String) (op : BitVec 8) (f3 imm : Word) : Instruction :=
  { name, format := .i, opcode := op, form := .twoRegs, funct3 := f3, fixedImm := imm, ext := .base }

def load (name : String) (f3 : Word) : Instruction :=
  { name, format := .i, opcode := opLoad, form := .load, funct3 := f3, immBits := 12, ext := .base }

def store (name : String) (f3 : Word) : Instruction :=
  { name, format := .s, opcode := opStore, form := .store, funct3 := f3, immBits := 12, ext := .base }

def branch (name : String) (f3 : Word) : Instruction :=
  { name, format := .b, opcode := opBranch, form := .branch, funct3 := f3, immBits := 13,
    ext := .base }

/-- A system instruction without operands, told apart by the place of its immediate. -/
def system (name : String) (imm : Word) : Instruction :=
  { name, format := .i, opcode := opSystem, form := .bare, funct3 := some 0, fixedImm := imm,
    fixed := zeroRd.or zeroRs1, ext := .base }

/-- An access to a control register. -/
def controlAccess (name : String) (f3 : Word) (form : Form) : Instruction :=
  { name, format := .i, opcode := opSystem, form, funct3 := f3, immBits := 12, unsigned := true,
    ext := .base }

end RvCodec.Catalogue
