import RvCodec.Catalogue.Shape

/-!
# The integer instruction sets

RV32I, RV64I and RV128I, with the control-register instructions, the instruction fence and the
returns from machine and supervisor mode, and the M and A extensions.
-/

set_option autoImplicit false

namespace RvCodec.Catalogue

/-- Upper immediates, jumps and branches. -/
def controlFlow : List Instruction :=
  [{ name := "lui", format := .u, opcode := opLui, form := .upper, immBits := 20, unsigned := true,
     ext := .base },
   { name := "auipc", format := .u, opcode := opAuipc, form := .upper, immBits := 20,
     unsigned := true, ext := .base },
   { name := "jal", format := .j, opcode := opJal, form := .jump, immBits := 21, ext := .base },
   { name := "jalr", format := .i, opcode := opJalr, form := .jumpReg, funct3 := some 0,
     immBits := 12, ext := .base },
   branch "beq" 0b000,
   branch "bne" 0b001,
   branch "blt" 0b100,
   branch "bge" 0b101,
   branch "bltu" 0b110,
   branch "bgeu" 0b111]

/-- Loads and stores of up to four bytes. -/
def memory32 : List Instruction :=
  [load "lb" 0b000,
   load "lh" 0b001,
   load "lw" 0b010,
   load "lbu" 0b100,
   load "lhu" 0b101,
   store "sb" 0b000,
   store "sh" 0b001,
   store "sw" 0b010]

def arithmetic32 : List Instruction :=
  [regImm "addi" opImm 0b000,
   regImm "slti" opImm 0b010,
   regImm "sltiu" opImm 0b011,
   regImm "xori" opImm 0b100,
   regImm "ori" opImm 0b110,
   regImm "andi" opImm 0b111,
   shift7 "slli" opImm 0b001 0b00000,
   shift7 "srli" opImm 0b101 0b00000,
   shift7 "srai" opImm 0b101 0b01000,
   regReg "add" opReg 0b000 0b0000000,
   regReg "sub" opReg 0b000 0b0100000,
   regReg "sll" opReg 0b001 0b0000000,
   regReg "slt" opReg 0b010 0b0000000,
   regReg "sltu" opReg 0b011 0b0000000,
   regReg "xor" opReg 0b100 0b0000000,
   regReg "srl" opReg 0b101 0b0000000,
   regReg "sra" opReg 0b101 0b0100000,
   regReg "or" opReg 0b110 0b0000000,
   regReg "and" opReg 0b111 0b0000000]

/-- Fences, calls to the environment and control registers. -/
def environment : List Instruction :=
  [{ name := "fence", format := .i, opcode := opMiscMem, form := .fence, funct3 := some 0,
     fixed := (zeroRd.or zeroRs1).or (zeroBits 31 28), ext := .base },
   { name := "fence.i", format := .i, opcode := opMiscMem, form := .bare, funct3 := some 1,
     fixedImm := some 0, fixed := zeroRd.or zeroRs1, ext := .base },
   system "ecall" 0x000,
   system "ebreak" 0x001,
   system "sret" 0x102,
   system "wfi" 0x105,
   system "mret" 0x302,
   controlAccess "csrrw" 0b001 .csr,
   controlAccess "csrrs" 0b010 .csr,
   controlAccess "csrrc" 0b011 .csr,
   controlAccess "csrrwi" 0b101 .csrImm,
   controlAccess "csrrsi" 0b110 .csrImm,
   controlAccess "csrrci" 0b111 .csrImm]

/-- What 64-bit registers add. -/
def base64 : List Instruction :=
  [load "lwu" 0b110,
   load "ld" 0b011,
   store "sd" 0b011,
   regImm "addiw" opImm32 0b000,
   shift5 "slliw" opImm32 0b001 0b0000000,
   shift5 "srliw" opImm32 0b101 0b0000000,
   shift5 "sraiw" opImm32 0b101 0b0100000,
   regReg "addw" opReg32 0b000 0b0000000,
   regReg "subw" opReg32 0b000 0b0100000,
   regReg "sllw" opReg32 0b001 0b0000000,
   regReg "srlw" opReg32 0b101 0b0000000,
   regReg "sraw" opReg32 0b101 0b0100000].map (·.fromXlen 64)

/-- What 128-bit registers add. -/
def base128 : List Instruction :=
  [load "ldu" 0b111,
   { name := "lq", format := .i, opcode := opMiscMem, form := .load, funct3 := some 0b010,
     immBits := 12, ext := .base },
   store "sq" 0b100,
   regImm "addid" opImm64 0b000,
   shift6 "sllid" opImm64 0b001 0b000000,
   shift6 "srlid" opImm64 0b101 0b000000,
   shift6 "sraid" opImm64 0b101 0b010000,
   regReg "addd" opReg64 0b000 0b0000000,
   regReg "subd" opReg64 0b000 0b0100000,
   regReg "slld" opReg64 0b001 0b0000000,
   regReg "srld" opReg64 0b101 0b0000000,
   regReg "srad" opReg64 0b101 0b0100000].map (·.fromXlen 128)

def base : List Instruction :=
  controlFlow ++ memory32 ++ arithmetic32 ++ environment ++ base64 ++ base128

/-!
## Multiplication and division

The M extension, for registers and for the narrower operands of the wider bases.
-/

/-- Multiplication and division of the lower half of the registers of a wider base. -/
def narrowMultiply (op : BitVec 8) (ending : String) : List Instruction :=
  [regReg ("mul" ++ ending) op 0b000 0b0000001,
   regReg ("div" ++ ending) op 0b100 0b0000001,
   regReg ("divu" ++ ending) op 0b101 0b0000001,
   regReg ("rem" ++ ending) op 0b110 0b0000001,
   regReg ("remu" ++ ending) op 0b111 0b0000001]

def multiply : List Instruction :=
  ([regReg "mul" opReg 0b000 0b0000001,
    regReg "mulh" opReg 0b001 0b0000001,
    regReg "mulhsu" opReg 0b010 0b0000001,
    regReg "mulhu" opReg 0b011 0b0000001,
    regReg "div" opReg 0b100 0b0000001,
    regReg "divu" opReg 0b101 0b0000001,
    regReg "rem" opReg 0b110 0b0000001,
    regReg "remu" opReg 0b111 0b0000001]
    ++ (narrowMultiply opReg32 "w").map (·.fromXlen 64)
    ++ (narrowMultiply opReg64 "d").map (·.fromXlen 128)).map (·.inExtension .multiply)

/-!
## Atomic memory operations

The A extension.  The seven function bits of these instructions are five that select the operation
and two, acquire and release, that belong to the operands.
-/

/-- An atomic operation on memory. -/
def atomicOp (ending : String) (f3 : Word) (xlen : Nat) (name : String) (f5 : Word) : Instruction :=
  { name := name ++ "." ++ ending, format := .r, opcode := opAtomic, form := .atomic, funct3 := f3,
    funct7 := f5.up 2, minXlen := some xlen, ext := .atomic }

/-- The atomic operations of one access width. -/
def atomicWidth (ending : String) (f3 : Word) (xlen : Nat) : List Instruction :=
  let op := atomicOp ending f3 xlen
  [{ op "lr" 0b00010 with form := .loadReserved, fixedRs2 := some 0 },
   op "sc" 0b00011,
   op "amoswap" 0b00001,
   op "amoadd" 0b00000,
   op "amoxor" 0b00100,
   op "amoand" 0b01100,
   op "amoor" 0b01000,
   op "amomin" 0b10000,
   op "amomax" 0b10100,
   op "amominu" 0b11000,
   op "amomaxu" 0b11100]

def atomic : List Instruction := atomicWidth "w" 0b010 32 ++ atomicWidth "d" 0b011 64

end RvCodec.Catalogue
