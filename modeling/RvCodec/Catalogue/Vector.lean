import RvCodec.Catalogue.Shape

/-!
# Vector operations

The V extension: configuration, loads and stores, and integer and floating-point arithmetic.
-/

set_option autoImplicit false

namespace RvCodec.Catalogue

/-! ## Categories of vector arithmetic -/

def intVectorVector : Word := 0b000
def floatVectorVector : Word := 0b001
def mulVectorVector : Word := 0b010
def intVectorImm : Word := 0b011
def intVectorReg : Word := 0b100
def floatVectorReg : Word := 0b101
def mulVectorReg : Word := 0b110
def configuration : Word := 0b111

/-! ## Shapes -/

/-- An arithmetic operation. -/
def vectorOp (name : String) (f6 f3 : Word) (form : Form) : Instruction :=
  { name, format := .v, opcode := opVector, form, funct3 := f3, funct6 := f6,
    immBits := if form = .vectorImm then 5 else 0, ext := .vector }

/-- A shift by an immediate, which is unsigned. -/
def vectorShiftImm (name : String) (f6 : Word) : Instruction :=
  { vectorOp name f6 intVectorImm .vectorImm with unsigned := true }

/-- The vector form of an integer operation. -/
def withVector (name : String) (f6 : Word) : Instruction :=
  vectorOp (name ++ ".vv") f6 intVectorVector .vectorVector

/-- The register form of an integer operation. -/
def withReg (name : String) (f6 : Word) : Instruction :=
  vectorOp (name ++ ".vx") f6 intVectorReg .vectorInt

/-- The immediate form of an integer operation. -/
def withImm (name : String) (f6 : Word) : Instruction :=
  vectorOp (name ++ ".vi") f6 intVectorImm .vectorImm

/-- The vector and register forms of an integer operation. -/
def vectorReg (name : String) (f6 : Word) : List Instruction :=
  [withVector name f6, withReg name f6]

/-- The register and immediate forms of an integer operation. -/
def regImmediate (name : String) (f6 : Word) : List Instruction :=
  [withReg name f6, withImm name f6]

/-- All three forms of an integer operation. -/
def vectorRegImm (name : String) (f6 : Word) : List Instruction :=
  [withVector name f6, withReg name f6, withImm name f6]

/-- The vector and register forms of a multiplication or division. -/
def mulForms (name : String) (f6 : Word) : List Instruction :=
  [vectorOp (name ++ ".vv") f6 mulVectorVector .vectorVector,
   vectorOp (name ++ ".vx") f6 mulVectorReg .vectorInt]

/-- The vector and register forms of a floating-point operation. -/
def floatForms (name : String) (f6 : Word) : List Instruction :=
  [vectorOp (name ++ ".vv") f6 floatVectorVector .vectorVector,
   vectorOp (name ++ ".vf") f6 floatVectorReg .vectorFloat]

/-- The loads and stores of one element width.  Their six function bits say how the elements lie in
memory. -/
def vectorMemory (width : String) (f3 : Word) : List Instruction :=
  let access (name : String) (format : Format) (op : BitVec 8) (f6 : Word) (form : Form) :
      Instruction :=
    { name := name ++ width ++ ".v", format, opcode := op, form, funct3 := f3, funct6 := f6,
      ext := .vector }
  [(access "vle" .vl opLoadFloat 0b000000 .vectorLoad).withRs2 0,
   access "vlse" .vl opLoadFloat 0b000010 .vectorLoadStrided,
   access "vluxei" .vl opLoadFloat 0b000001 .vectorLoadIndexed,
   (access "vse" .vs opStoreFloat 0b000000 .vectorStore).withRs2 0,
   access "vsse" .vs opStoreFloat 0b000010 .vectorStoreStrided,
   access "vsuxei" .vs opStoreFloat 0b000001 .vectorStoreIndexed]

/-! ## The instructions -/

def vectorConfiguration : List Instruction :=
  [{ name := "vsetvli", format := .v, opcode := opVector, form := .setVectorType,
     funct3 := configuration, immBits := 11, unsigned := true, fixed := zeroBits 31 31,
     ext := .vector },
   { name := "vsetivli", format := .v, opcode := opVector, form := .setVectorTypeImm,
     funct3 := configuration, immBits := 10, unsigned := true,
     fixed := ⟨BitRange.mask ⟨31, 30⟩, (0b11 : Word).up 30⟩, ext := .vector },
   { name := "vsetvl", format := .v, opcode := opVector, form := .setVectorTypeReg,
     funct3 := configuration, fixed := ⟨BitRange.mask ⟨31, 25⟩, (0b1000000 : Word).up 25⟩,
     ext := .vector }]

def vectorAccess : List Instruction :=
  vectorMemory "8" 0b000 ++ vectorMemory "16" 0b101 ++ vectorMemory "32" 0b110
    ++ vectorMemory "64" 0b111

def vectorInteger : List Instruction :=
  vectorRegImm "vadd" 0b000000 ++ vectorReg "vsub" 0b000010 ++ regImmediate "vrsub" 0b000011
    ++ vectorReg "vminu" 0b000100 ++ vectorReg "vmin" 0b000101
    ++ vectorReg "vmaxu" 0b000110 ++ vectorReg "vmax" 0b000111
    ++ vectorRegImm "vand" 0b001001 ++ vectorRegImm "vor" 0b001010 ++ vectorRegImm "vxor" 0b001011
    ++ vectorRegImm "vmseq" 0b011000 ++ vectorRegImm "vmsne" 0b011001
    ++ vectorReg "vsll" 0b100101 ++ vectorReg "vsrl" 0b101000 ++ vectorReg "vsra" 0b101001
    ++ [vectorShiftImm "vsll.vi" 0b100101,
        vectorShiftImm "vsrl.vi" 0b101000,
        vectorShiftImm "vsra.vi" 0b101001]

/-- Merges and moves, which differ in the mask bit only. -/
def vectorMoves : List Instruction :=
  [(vectorOp "vmerge.vvm" 0b010111 intVectorVector .mergeVector).withMaskBit 0,
   (vectorOp "vmerge.vxm" 0b010111 intVectorReg .mergeInt).withMaskBit 0,
   (vectorOp "vmerge.vim" 0b010111 intVectorImm .mergeImm).withMaskBit 0,
   ((vectorOp "vmv.v.v" 0b010111 intVectorVector .moveVector).withMaskBit 1).withRs2 0,
   ((vectorOp "vmv.v.x" 0b010111 intVectorReg .moveInt).withMaskBit 1).withRs2 0,
   ((vectorOp "vmv.v.i" 0b010111 intVectorImm .moveImm).withMaskBit 1).withRs2 0]

/-- Multiplication, division and floating-point arithmetic. -/
def vectorMultiply : List Instruction :=
  mulForms "vmul" 0b100101 ++ mulForms "vmulh" 0b100111 ++ mulForms "vmulhu" 0b100100
    ++ mulForms "vdivu" 0b100000 ++ mulForms "vdiv" 0b100001
    ++ floatForms "vfadd" 0b000000 ++ floatForms "vfsub" 0b000010 ++ floatForms "vfmul" 0b100100

def vector : List Instruction :=
  vectorConfiguration ++ vectorAccess ++ vectorInteger ++ vectorMoves ++ vectorMultiply

end RvCodec.Catalogue
