import RvCodec.Catalogue.Shape

/-!
# 16-bit instructions

The C extension, by quadrant.  The loads and stores of floating-point registers belong to the F and D
extensions, so that they follow the options for those.  Some encodings of the 32-bit base are reused
by the 64-bit base for other instructions; the former exist up to 32 bits only.
-/

set_option autoImplicit false

namespace RvCodec.Catalogue

def short (name : String) (format : Format) (quadrant : BitVec 8) (f3 : Word) (form : Form) :
    Instruction :=
  { name, format, opcode := quadrant, form, funct3 := f3, ext := .compressed }

/-- A 16-bit instruction on whole registers. -/
def shortReg (name : String) (f4 : Word) (form : Form) : Instruction :=
  { short name .cr quadrant2 0b100 form with funct4 := some f4 }

/-- Arithmetic on two registers, in 16 bits. -/
def shortArith (name : String) (f6 f2 : Word) : Instruction :=
  { short name .ca quadrant1 0b100 .shortPair with funct6 := some f6, funct2 := some f2 }

/-- Arithmetic with an immediate, in 16 bits. -/
def shortArithImm (name : String) (f2 : Word) (form : Form) : Instruction :=
  { short name .cb quadrant1 0b100 form with funct2 := some f2 }

/-- No second source register. -/
def shortZeroRs2 : FixedBits := zeroBits 6 2

/-- No immediate. -/
def shortZeroImm : FixedBits := (zeroBits 12 12).or (zeroBits 6 2)

/-- The stack pointer as destination. -/
def shortRdStack : FixedBits := ⟨BitRange.mask ⟨11, 7⟩, (2 : Word).up 7⟩

/-- The first quadrant. -/
def compressed0 : List Instruction :=
  [short "c.addi4spn" .ciw quadrant0 0b000 .shortStackAddress,
   ((short "c.fld" .cl quadrant0 0b001 .shortLoad).moving 8).inExtension .double,
   (short "c.lw" .cl quadrant0 0b010 .shortLoad).moving 4,
   (((short "c.flw" .cl quadrant0 0b011 .shortLoad).moving 4).inExtension .single).upToXlen 32,
   ((short "c.ld" .cl quadrant0 0b011 .shortLoad).moving 8).fromXlen 64,
   ((short "c.fsd" .cs quadrant0 0b101 .shortStore).moving 8).inExtension .double,
   (short "c.sw" .cs quadrant0 0b110 .shortStore).moving 4,
   (((short "c.fsw" .cs quadrant0 0b111 .shortStore).moving 4).inExtension .single).upToXlen 32,
   ((short "c.sd" .cs quadrant0 0b111 .shortStore).moving 8).fromXlen 64]

/-- The second quadrant. -/
def compressed1 : List Instruction :=
  [(short "c.nop" .ci quadrant1 0b000 .bare).withFixed (zeroRd.or shortZeroImm),
   short "c.addi" .ci quadrant1 0b000 .shortImm,
   (short "c.jal" .cj quadrant1 0b001 .shortJump).upToXlen 32,
   (short "c.addiw" .ci quadrant1 0b001 .shortImm).fromXlen 64,
   short "c.li" .ci quadrant1 0b010 .shortImm,
   (short "c.addi16sp" .ci quadrant1 0b011 .shortStackAdjust).withFixed shortRdStack,
   short "c.lui" .ci quadrant1 0b011 .shortUpper,
   shortArithImm "c.srli" 0b00 .shortShift,
   shortArithImm "c.srai" 0b01 .shortShift,
   shortArithImm "c.andi" 0b10 .shortAnd,
   shortArith "c.sub" 0b100011 0b00,
   shortArith "c.xor" 0b100011 0b01,
   shortArith "c.or" 0b100011 0b10,
   shortArith "c.and" 0b100011 0b11,
   (shortArith "c.subw" 0b100111 0b00).fromXlen 64,
   (shortArith "c.addw" 0b100111 0b01).fromXlen 64,
   short "c.j" .cj quadrant1 0b101 .shortJump,
   short "c.beqz" .cb quadrant1 0b110 .shortBranch,
   short "c.bnez" .cb quadrant1 0b111 .shortBranch]

/-- The third quadrant. -/
def compressed2 : List Instruction :=
  [short "c.slli" .ci quadrant2 0b000 .shortShift,
   ((short "c.fldsp" .ci quadrant2 0b001 .shortLoadStack).moving 8).inExtension .double,
   (short "c.lwsp" .ci quadrant2 0b010 .shortLoadStack).moving 4,
   (((short "c.flwsp" .ci quadrant2 0b011 .shortLoadStack).moving 4).inExtension .single).upToXlen 32,
   ((short "c.ldsp" .ci quadrant2 0b011 .shortLoadStack).moving 8).fromXlen 64,
   (shortReg "c.jr" 0b1000 .shortOneReg).withFixed shortZeroRs2,
   shortReg "c.mv" 0b1000 .shortTwoRegs,
   (shortReg "c.ebreak" 0b1001 .bare).withFixed (zeroRd.or shortZeroRs2),
   (shortReg "c.jalr" 0b1001 .shortOneReg).withFixed shortZeroRs2,
   shortReg "c.add" 0b1001 .shortTwoRegs,
   ((short "c.fsdsp" .css quadrant2 0b101 .shortStoreStack).moving 8).inExtension .double,
   (short "c.swsp" .css quadrant2 0b110 .shortStoreStack).moving 4,
   (((short "c.fswsp" .css quadrant2 0b111 .shortStoreStack).moving 4).inExtension .single).upToXlen
     32,
   ((short "c.sdsp" .css quadrant2 0b111 .shortStoreStack).moving 8).fromXlen 64]

def compressed : List Instruction := compressed0 ++ compressed1 ++ compressed2

end RvCodec.Catalogue
