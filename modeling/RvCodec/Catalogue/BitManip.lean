import RvCodec.Catalogue.Shape

/-!
# Bit manipulation

The parts Zba, Zbb, Zbc and Zbs of the B extension.  Byte reversal and the zero extension of half
words are encoded differently for 32 and 64 bits; each mnemonic has one encoding here, that of the
32-bit base.
-/

set_option autoImplicit false

namespace RvCodec.Catalogue

def addressGeneration : List Instruction :=
  [regReg "sh1add" opReg 0b010 0b0010000,
   regReg "sh2add" opReg 0b100 0b0010000,
   regReg "sh3add" opReg 0b110 0b0010000,
   (regReg "add.uw" opReg32 0b000 0b0000100).fromXlen 64,
   (regReg "sh1add.uw" opReg32 0b010 0b0010000).fromXlen 64,
   (regReg "sh2add.uw" opReg32 0b100 0b0010000).fromXlen 64,
   (regReg "sh3add.uw" opReg32 0b110 0b0010000).fromXlen 64,
   (shift6 "slli.uw" opImm32 0b001 0b000010).fromXlen 64]

/-- Logic with negation, extremes, rotation, counting and extension. -/
def basicBits : List Instruction :=
  [regReg "andn" opReg 0b111 0b0100000,
   regReg "orn" opReg 0b110 0b0100000,
   regReg "xnor" opReg 0b100 0b0100000,
   regReg "max" opReg 0b110 0b0000101,
   regReg "maxu" opReg 0b111 0b0000101,
   regReg "min" opReg 0b100 0b0000101,
   regReg "minu" opReg 0b101 0b0000101,
   regReg "rol" opReg 0b001 0b0110000,
   regReg "ror" opReg 0b101 0b0110000,
   shift6 "rori" opImm 0b101 0b011000,
   unary "clz" opImm 0b001 0x600,
   unary "ctz" opImm 0b001 0x601,
   unary "cpop" opImm 0b001 0x602,
   unary "sext.b" opImm 0b001 0x604,
   unary "sext.h" opImm 0b001 0x605,
   unary "orc.b" opImm 0b101 0x287,
   unary "rev8" opImm 0b101 0x698,
   { name := "zext.h", format := .r, opcode := opReg, form := .twoRegs, funct3 := some 0b100,
     funct7 := some 0b0000100, fixedRs2 := some 0, ext := .base },
   (regReg "rolw" opReg32 0b001 0b0110000).fromXlen 64,
   (regReg "rorw" opReg32 0b101 0b0110000).fromXlen 64,
   (shift5 "roriw" opImm32 0b101 0b0110000).fromXlen 64,
   (unary "clzw" opImm32 0b001 0x600).fromXlen 64,
   (unary "ctzw" opImm32 0b001 0x601).fromXlen 64,
   (unary "cpopw" opImm32 0b001 0x602).fromXlen 64]

def carryless : List Instruction :=
  [regReg "clmul" opReg 0b001 0b0000101,
   regReg "clmulr" opReg 0b010 0b0000101,
   regReg "clmulh" opReg 0b011 0b0000101]

def singleBits : List Instruction :=
  [regReg "bclr" opReg 0b001 0b0100100,
   regReg "bext" opReg 0b101 0b0100100,
   regReg "binv" opReg 0b001 0b0110100,
   regReg "bset" opReg 0b001 0b0010100,
   shift6 "bclri" opImm 0b001 0b010010,
   shift6 "bexti" opImm 0b101 0b010010,
   shift6 "binvi" opImm 0b001 0b011010,
   shift6 "bseti" opImm 0b001 0b001010]

def bitManip : List Instruction :=
  (addressGeneration ++ basicBits ++ carryless ++ singleBits).map (·.inExtension .bitManip)

end RvCodec.Catalogue
