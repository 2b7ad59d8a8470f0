import RvCodec.Catalogue.Shape

/-!
# Floating point

The F, D and Q extensions: the same instructions for each precision, and a few conversions and moves
that only some have.
-/

set_option autoImplicit false

namespace RvCodec.Catalogue

/-- A precision: the ending of its mnemonics, the letter of its loads and stores, the code of its
format and of its access width, and its extension. -/
structure Precision where
  ending : String
  access : String
  format : Word
  accessWidth : Word
  ext : Extension

def singlePrecision : Precision := ⟨".s", "w", 0b00, 0b010, .single⟩
def doublePrecision : Precision := ⟨".d", "d", 0b01, 0b011, .double⟩
def quadPrecision : Precision := ⟨".q", "q", 0b11, 0b100, .quad⟩

/-- A floating-point operation that rounds. -/
def roundingOp (name : String) (f5 format : Word) (form : Form) (ext : Extension) : Instruction :=
  { name, format := .fr, opcode := opFloat, form, funct7 := f5.up 2 ||| format, rounds := true, ext }

/-- A floating-point operation that does not round and has function bits instead. -/
def exactOp (name : String) (f5 format f3 : Word) (form : Form) (ext : Extension) : Instruction :=
  { roundingOp name f5 format form ext with rounds := false, funct3 := some f3 }

/-- A fused multiplication and addition. -/
def fused (p : Precision) (name : String) (op : BitVec 8) : Instruction :=
  { name := name ++ p.ending, format := .fr4, opcode := op, form := .fourFloats,
    funct2 := p.format, rounds := true, ext := p.ext }

/-- The instructions that every precision has. -/
def floatCommon (p : Precision) : List Instruction :=
  [{ name := "fl" ++ p.access, format := .fi, opcode := opLoadFloat, form := .floatLoad,
     funct3 := p.accessWidth, immBits := 12, ext := p.ext },
   { name := "fs" ++ p.access, format := .fs, opcode := opStoreFloat, form := .floatStore,
     funct3 := p.accessWidth, immBits := 12, ext := p.ext },
   fused p "fmadd" opMadd,
   fused p "fmsub" opMsub,
   fused p "fnmsub" opNmsub,
   fused p "fnmadd" opNmadd,
   roundingOp ("fadd" ++ p.ending) 0b00000 p.format .threeFloats p.ext,
   roundingOp ("fsub" ++ p.ending) 0b00001 p.format .threeFloats p.ext,
   roundingOp ("fmul" ++ p.ending) 0b00010 p.format .threeFloats p.ext,
   roundingOp ("fdiv" ++ p.ending) 0b00011 p.format .threeFloats p.ext,
   (roundingOp ("fsqrt" ++ p.ending) 0b01011 p.format .twoFloats p.ext).withRs2 0,
   exactOp ("fsgnj" ++ p.ending) 0b00100 p.format 0b000 .threeFloats p.ext,
   exactOp ("fsgnjn" ++ p.ending) 0b00100 p.format 0b001 .threeFloats p.ext,
   exactOp ("fsgnjx" ++ p.ending) 0b00100 p.format 0b010 .threeFloats p.ext,
   exactOp ("fmin" ++ p.ending) 0b00101 p.format 0b000 .threeFloats p.ext,
   exactOp ("fmax" ++ p.ending) 0b00101 p.format 0b001 .threeFloats p.ext,
   exactOp ("feq" ++ p.ending) 0b10100 p.format 0b010 .floatCompare p.ext,
   exactOp ("flt" ++ p.ending) 0b10100 p.format 0b001 .floatCompare p.ext,
   exactOp ("fle" ++ p.ending) 0b10100 p.format 0b000 .floatCompare p.ext,
   (exactOp ("fclass" ++ p.ending) 0b11100 p.format 0b001 .floatToInt p.ext).withRs2 0,
   (roundingOp ("fcvt.w" ++ p.ending) 0b11000 p.format .floatToInt p.ext).withRs2 0,
   (roundingOp ("fcvt.wu" ++ p.ending) 0b11000 p.format .floatToInt p.ext).withRs2 1,
   (roundingOp ("fcvt" ++ p.ending ++ ".w") 0b11010 p.format .intToFloat p.ext).withRs2 0,
   (roundingOp ("fcvt" ++ p.ending ++ ".wu") 0b11010 p.format .intToFloat p.ext).withRs2 1,
   ((roundingOp ("fcvt.l" ++ p.ending) 0b11000 p.format .floatToInt p.ext).withRs2 2).fromXlen 64,
   ((roundingOp ("fcvt.lu" ++ p.ending) 0b11000 p.format .floatToInt p.ext).withRs2 3).fromXlen 64,
   ((roundingOp ("fcvt" ++ p.ending ++ ".l") 0b11010 p.format .intToFloat p.ext).withRs2 2).fromXlen 64,
   ((roundingOp ("fcvt" ++ p.ending ++ ".lu") 0b11010 p.format .intToFloat p.ext).withRs2 3).fromXlen
     64]

/-- A conversion between two precisions, as part of an extension. -/
def conversion (name : String) (target source : Precision) (ext : Extension) : Instruction :=
  (roundingOp name 0b01000 target.format .twoFloats ext).withRs2 source.format

def single : List Instruction :=
  floatCommon singlePrecision ++
    [(exactOp "fmv.x.w" 0b11100 singlePrecision.format 0b000 .floatToInt .single).withRs2 0,
     (exactOp "fmv.w.x" 0b11110 singlePrecision.format 0b000 .intToFloat .single).withRs2 0]

def double : List Instruction :=
  floatCommon doublePrecision ++
    [conversion "fcvt.s.d" singlePrecision doublePrecision .double,
     conversion "fcvt.d.s" doublePrecision singlePrecision .double,
     ((exactOp "fmv.x.d" 0b11100 doublePrecision.format 0b000 .floatToInt .double).withRs2 0).fromXlen
       64,
     ((exactOp "fmv.d.x" 0b11110 doublePrecision.format 0b000 .intToFloat .double).withRs2 0).fromXlen
       64]

def quad : List Instruction :=
  floatCommon quadPrecision ++
    [conversion "fcvt.s.q" singlePrecision quadPrecision .quad,
     conversion "fcvt.q.s" quadPrecision singlePrecision .quad,
     conversion "fcvt.d.q" doublePrecision quadPrecision .quad,
     conversion "fcvt.q.d" quadPrecision doublePrecision .quad]

end RvCodec.Catalogue
