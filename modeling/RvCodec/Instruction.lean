import RvCodec.Form
import RvCodec.Layout
import RvCodec.Symbol
import RvCodec.Xlen

/-!
# Instructions

The description of one mnemonic: its format, the constant bits of its encoding, its written form and
where it is available.  Everything else is derived: the mask and test that tell whether a word is an
encoding of it, the key under which it is indexed, its immediate, its operands, and which of its
encodings are reserved.
-/

set_option autoImplicit false

namespace RvCodec

/-- The index key of an instruction: its major opcode, or for a 16-bit instruction its three function
bits in front of its quadrant. -/
abbrev Key := BitVec 8

/-- Bits that an encoding has to carry, in places that no function field covers. -/
structure FixedBits where
  mask : Word
  value : Word := 0
  deriving DecidableEq, Repr

namespace FixedBits

def or (a b : FixedBits) : FixedBits := ⟨a.mask ||| b.mask, a.value ||| b.value⟩

end FixedBits

/-- The description of one mnemonic.  A function field is absent or has a value: there is no absent
field that keeps a value, which the mask would leave out and the key would still show. -/
structure Instruction where
  name : String
  format : Format
  /-- The major opcode, or the quadrant of a 16-bit instruction. -/
  opcode : BitVec 8
  form : Form
  funct2 : Option Word := none
  funct3 : Option Word := none
  funct4 : Option Word := none
  funct5 : Option Word := none
  funct6 : Option Word := none
  funct7 : Option Word := none
  /-- The width of the immediate, or zero. -/
  immBits : Nat := 0
  unsigned : Bool := false
  /-- A constant in the place of a twelve-bit immediate. -/
  fixedImm : Option Word := none
  /-- A constant in the place of the second source register. -/
  fixedRs2 : Option Word := none
  /-- Other constant bits. -/
  fixed : FixedBits := ⟨0, 0⟩
  /-- A constant in the place of the vector mask bit. -/
  maskBit : Option Word := none
  /-- A rounding mode may follow the other operands. -/
  rounds : Bool := false
  /-- The number of bytes that a 16-bit load or store moves. -/
  memBytes : Nat := 0
  /-- The narrowest width, 32 if not given. -/
  minXlen : Xlen := none
  /-- The widest width, if there is one. -/
  maxXlen : Xlen := none
  ext : Extension
  deriving DecidableEq, Repr

namespace Instruction

/-! ## Availability -/

def requiredXlen (i : Instruction) : Nat := i.minXlen.getD 32

/-- The base and extension that the instruction belongs to, such as `RV64D`. -/
def standard (i : Instruction) : String :=
  "RV" ++ Text.numeral 10 i.requiredXlen ++ i.ext.letter.toString

def isShort (i : Instruction) : Bool := i.format.isShort

/-- An instruction whose mnemonic may carry an ordering ending. -/
def isAtomic (i : Instruction) : Bool := i.form.isAtomic

/-! ## The constant bits of the encoding -/

/-- A constant in a field, if there is one. -/
def constant (top bottom : Nat) (value : Option Word) : List (BitRange × Word) :=
  (value.map fun v => (⟨top, bottom⟩, v)).toList

/-- The constant fields of the encoding. -/
def constants (i : Instruction) : List (BitRange × Word) :=
  let opcode := i.opcode.setWidth 32
  if i.isShort then
    constant 1 0 opcode ++ constant 15 13 i.funct3 ++
      match i.format with
      | .cr => constant 15 12 i.funct4
      | .ca => constant 15 10 i.funct6 ++ constant 6 5 i.funct2
      | .cb => constant 11 10 i.funct2
      | _ => []
  else
    constant 6 0 opcode ++ constant 14 12 i.funct3 ++
      (match i.format with
        | .fr4 => constant 26 25 i.funct2
        | .v | .vl | .vs => constant 31 26 i.funct6 ++ constant 25 25 i.maskBit
        | _ => constant 31 27 i.funct5 ++ constant 31 26 i.funct6) ++
      (if i.isAtomic then constant 31 27 (i.funct7.map (·.down 2))
        else constant 31 25 i.funct7) ++
      constant 31 20 i.fixedImm ++ constant 24 20 i.fixedRs2

/-- The bits that are the same in every encoding. -/
def mask (i : Instruction) : Word :=
  Word.union (i.constants.map (·.1.mask)) ||| i.fixed.mask

/-- What those bits are. -/
def test (i : Instruction) : Word :=
  Word.union (i.constants.map fun c => c.1.put c.2) ||| (i.fixed.value &&& i.fixed.mask)

/-- The word is an encoding of the instruction. -/
def covers (i : Instruction) (w : Word) : Bool := w &&& i.mask = i.test

def specificity (i : Instruction) : Nat := i.mask.popcount

/-- The key under which the instruction is indexed. -/
def key (i : Instruction) : Key :=
  if i.isShort then ((i.funct3.getD 0).up 2 ||| i.opcode.setWidth 32).setWidth 8 else i.opcode

end Instruction

/-! ## Keys of words -/

namespace Key

def ofShort (w : Word) : Key :=
  (((⟨15, 13⟩ : BitRange).get w).up 2 ||| (w &&& 3)).setWidth 8

/-- The key of any word; the two low bits tell the 16-bit ones apart. -/
def ofWord (w : Word) : Key := if w &&& 3 ≠ 3 then ofShort w else (w &&& 0x7f).setWidth 8

/-- The names of the major opcodes. -/
def opcodeNames : List (Key × String) :=
  [(0b0000011, "LOAD"), (0b0000111, "LOAD-FP"), (0b0001111, "MISC-MEM"), (0b0010011, "OP-IMM"),
   (0b0010111, "AUIPC"), (0b0011011, "OP-IMM-32"), (0b0100011, "STORE"), (0b0100111, "STORE-FP"),
   (0b0101111, "AMO"), (0b0110011, "OP"), (0b0110111, "LUI"), (0b0111011, "OP-32"),
   (0b1000011, "MADD"), (0b1000111, "MSUB"), (0b1001011, "NMSUB"), (0b1001111, "NMADD"),
   (0b1010011, "OP-FP"), (0b1010111, "OP-V"), (0b1011011, "OP-IMM-64"), (0b1100011, "BRANCH"),
   (0b1100111, "JALR"), (0b1101111, "JAL"), (0b1110011, "SYSTEM"), (0b1111011, "OP-64")]

def isLong (k : Key) : Bool := k &&& 3 = 3

/-- The key's seven or more binary digits behind `0b`. -/
def bitText (k : Key) : String := "0b" ++ Text.paddedNumeral 2 7 k.toNat

/-- The key's name: that of the opcode, or quadrant and function bits of a 16-bit instruction. -/
def name (k : Key) : String :=
  if k.isLong then ((opcodeNames.find? (·.1 = k)).map (·.2)).getD k.bitText
  else "C" ++ Text.numeral 10 (k.toNat % 4) ++ "." ++ Text.paddedNumeral 2 3 (k.toNat / 4)

end Key

namespace Instruction

/-! ## The immediate -/

/-- The main immediate operand.  That of the control-register instructions is the register's number,
and that of the vector configuration instructions the vector type. -/
def immediate (i : Instruction) : Immediate :=
  match i.form with
  | .shift => ⟨[⟨19 + i.immBits, 20, 0⟩], ⟨i.immBits, true⟩, false⟩
  | .vectorImm | .mergeImm | .moveImm => ⟨Layout.sourceField, ⟨5, i.unsigned⟩, false⟩
  | .setVectorType => ⟨Layout.vectorType, ⟨11, true⟩, false⟩
  | .setVectorTypeImm => ⟨Layout.vectorTypeImm, ⟨10, true⟩, false⟩
  | .shortImm | .shortAnd => .ofLayout Layout.short false false
  | .shortUpper => .ofLayout Layout.short false true
  | .shortShift => .ofLayout Layout.short true false
  | .shortStackAdjust => .ofLayout Layout.shortStackAdjust false true
  | .shortStackAddress => .ofLayout Layout.shortStackAddress true true
  | .shortLoadStack =>
    .ofLayout (if i.memBytes = 8 then Layout.shortLoadStack8 else Layout.shortLoadStack4) true false
  | .shortStoreStack =>
    .ofLayout (if i.memBytes = 8 then Layout.shortStoreStack8 else Layout.shortStoreStack4) true false
  | .shortLoad | .shortStore =>
    .ofLayout (if i.memBytes = 8 then Layout.shortMemory8 else Layout.shortMemory4) true false
  | .shortBranch => .ofLayout Layout.shortBranch false false
  | .shortJump => .ofLayout Layout.shortJump false false
  | _ =>
    if i.immBits = 0 then ⟨[], ⟨0, false⟩, false⟩
    else
      let layout : Layout :=
        match i.format with
        | .i | .fi => Layout.upperTwelve
        | .s | .fs => Layout.store
        | .b => Layout.branch
        | .u => Layout.upper
        | .j => Layout.jump
        | _ => []
      ⟨layout, ⟨i.immBits, i.unsigned⟩, false⟩

/-- The immediate is a shift amount that may need wide registers.  The amounts of the word-sized
shifts have five bits and never do. -/
def hasWideShift (i : Instruction) : Bool :=
  (i.form = .shift && 6 ≤ i.immBits) || i.form = .shortShift

/-- The narrowest base with the immediate as a legal shift amount, or none if every base has it. -/
def shiftXlen (i : Instruction) (v : Int) : Xlen :=
  if !i.hasWideShift || v < 32 then none else if v < 64 then some 64 else some 128

/-! ## Operands -/

/-- An integer register without restrictions. -/
def reg (f : BitRange) : Operand := .integer f false false

/-- The operands before any rounding mode, in the order in which they are written. -/
def mainOperands (i : Instruction) : List Operand :=
  let rd := reg Field.rd
  let rs1 := reg Field.rs1
  let rs2 := reg Field.rs2
  let frd := Operand.float Field.rd
  let frs1 := Operand.float Field.rs1
  let frs2 := Operand.float Field.rs2
  let vd := Operand.vector Field.rd
  let vs1 := Operand.vector Field.rs1
  let vs2 := Operand.vector Field.rs2
  let imm := Operand.immediate false
  let mem := Operand.memory (.integer Field.rs1)
  let addr := Operand.address Field.rs1
  let masked := Operand.vectorMask Field.unmasked
  let uimm := Operand.smallNumber Field.rs1
  let stackMem := Operand.memory .stackPointer
  let shortMem := Operand.memory (.shortInteger Field.shortRd3)
  match i.form with
  | .bare | .unassigned _ => []
  | .threeRegs | .setVectorTypeReg => [rd, rs1, rs2]
  | .regsImm | .shift | .jumpReg => [rd, rs1, imm]
  | .twoRegs => [rd, rs1]
  | .load => [rd, mem]
  | .store => [rs2, mem]
  | .branch => [rs1, rs2, imm]
  | .upper | .jump => [rd, imm]
  | .fence => [.fenceSet Field.fenceBefore, .fenceSet Field.fenceAfter]
  | .csr => [rd, .csr Field.csr, rs1]
  | .csrImm => [rd, .csr Field.csr, uimm]
  | .loadReserved => [rd, addr]
  | .atomic => [rd, rs2, addr]
  | .threeFloats => [frd, frs1, frs2]
  | .twoFloats => [frd, frs1]
  | .floatCompare => [rd, frs1, frs2]
  | .floatToInt => [rd, frs1]
  | .intToFloat => [frd, rs1]
  | .fourFloats => [frd, frs1, frs2, .float Field.rs3]
  | .floatLoad => [frd, mem]
  | .floatStore => [frs2, mem]
  | .vectorVector => [vd, vs2, vs1, masked]
  | .vectorInt => [vd, vs2, rs1, masked]
  | .vectorImm => [vd, vs2, imm, masked]
  | .vectorFloat => [vd, vs2, frs1, masked]
  | .mergeVector => [vd, vs2, vs1, .mergeMask]
  | .mergeInt => [vd, vs2, rs1, .mergeMask]
  | .mergeImm => [vd, vs2, imm, .mergeMask]
  | .moveVector => [vd, vs1]
  | .moveInt => [vd, rs1]
  | .moveImm => [vd, imm]
  | .vectorLoad | .vectorStore => [vd, addr, masked]
  | .vectorLoadStrided | .vectorStoreStrided => [vd, addr, rs2, masked]
  | .vectorLoadIndexed | .vectorStoreIndexed => [vd, addr, vs2, masked]
  | .setVectorType => [rd, rs1, .vtype]
  | .setVectorTypeImm => [rd, uimm, .vtype]
  | .shortTwoRegs => [rd, .integer Field.shortRs2 true false]
  | .shortOneReg => [.integer Field.rd true false]
  -- Register zero is reserved for the word-sized addition only; for the others it is a hint.
  | .shortImm => [.integer Field.rd (i.minXlen = some 64) false, imm]
  | .shortUpper => [.integer Field.rd true true, .immediate true]
  | .shortShift => [if i.format = .cb then .shortInteger Field.shortRd3 else rd, imm]
  | .shortAnd | .shortBranch => [.shortInteger Field.shortRd3, imm]
  | .shortStackAdjust => [.stackPointer, imm]
  | .shortStackAddress => [.shortInteger Field.shortRs3, .stackPointer, imm]
  | .shortLoadStack => [if i.ext.isFloat then frd else .integer Field.rd true false, stackMem]
  | .shortStoreStack =>
    [if i.ext.isFloat then .float Field.shortRs2 else reg Field.shortRs2, stackMem]
  | .shortLoad | .shortStore =>
    [if i.ext.isFloat then .shortFloat Field.shortRs3 else .shortInteger Field.shortRs3, shortMem]
  | .shortPair => [.shortInteger Field.shortRd3, .shortInteger Field.shortRs3]
  | .shortJump => [imm]

def operands (i : Instruction) : List Operand :=
  i.mainOperands ++ (if i.rounds then [.roundingMode Field.rounding] else [])

/-- The written form with placeholders for the operands, such as `addi rd, rs1, imm`. -/
def synopsis (i : Instruction) : String :=
  if i.operands.isEmpty then i.name
  else i.name ++ " " ++ ", ".intercalate (i.operands.map fun o => o.placeholder?.getD "")

end Instruction

/-! ## Reserved encodings -/

/-- What makes an encoding reserved. -/
inductive Reservation where
  | zeroRegister
  | stackPointer
  | zeroImmediate
  | roundingMode (mode : Word)
  deriving DecidableEq, Repr

namespace Reservation

def text : Reservation → String
  | zeroRegister => "x0"
  | stackPointer => "x2"
  | zeroImmediate => "a zero immediate"
  | roundingMode mode => "rounding mode " ++ Text.numeral 10 mode.toNat

end Reservation

namespace Instruction

/-- What one operand of a word makes reserved. -/
def reservedOperand? (i : Instruction) (w : Word) : Operand → Option Reservation
  | .integer f notZero notStack =>
    if notZero && f.get w == 0 then some .zeroRegister
    else if notStack && f.get w == 2 then some .stackPointer
    else none
  | .immediate _ =>
    if i.immediate.nonZero && i.immediate.decode w == 0 then some .zeroImmediate else none
  | .roundingMode f =>
    if (RoundingMode.name? (f.get w)).isNone then some (.roundingMode (f.get w)) else none
  | _ => none

/-- Why a word that matches the instruction is a reserved encoding of it, if it is one. -/
def reserved? (i : Instruction) (w : Word) : Option Reservation :=
  i.operands.findSome? (i.reservedOperand? w)

end Instruction

end RvCodec
