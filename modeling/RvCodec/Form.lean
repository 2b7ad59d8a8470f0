import RvCodec.Operand

/-!
# Formats and written forms

An instruction belongs to a bit layout family, its format, and has a written form, which says how its
operands are written and so where they are kept.  Both are numbered in the order of `assigned`; a
number beyond it is a family nothing is known about, or a form without operands.
-/

set_option autoImplicit false

namespace RvCodec

/-!
## Formats

The bit layout families of the instruction set: the six base formats, their floating-point and
vector relatives, and the nine 16-bit formats.
-/

inductive Format where
  | r | i | s | b | u | j
  | fr | fi | fs | fr4
  | cr | ci | css | ciw | cl | cs | ca | cb | cj
  | v | vl | vs
  | unassigned
  deriving DecidableEq, Repr

namespace Format

/-- The known families in the order of their numbers. -/
def assigned : List Format :=
  [r, i, s, b, u, j, fr, fi, fs, fr4, cr, ci, css, ciw, cl, cs, ca, cb, cj, v, vl, vs]

def ofCode (n : Nat) : Format := assigned.getD n unassigned

def name : Format → String
  | r => "R" | i => "I" | s => "S" | b => "B" | u => "U" | j => "J"
  | fr => "FR" | fi => "FI" | fs => "FS" | fr4 => "FR4"
  | cr => "CR" | ci => "CI" | css => "CSS" | ciw => "CIW" | cl => "CL" | cs => "CS"
  | ca => "CA" | cb => "CB" | cj => "CJ"
  | v => "V" | vl => "VL" | vs => "VS"
  | unassigned => "?"

/-- One of the 16-bit families. -/
def isShort : Format → Bool
  | cr | ci | css | ciw | cl | cs | ca | cb | cj => true
  | _ => false

end Format

/-!
## Forms

The comment on each form shows its operands as they are written.  `Instruction.operands` gives them
in full, because those of the 16-bit loads, stores, immediates and shifts depend on more of the
instruction than its form.
-/

/-- The written form of an instruction. -/
inductive Form where
  | bare  -- no operands
  | threeRegs  -- rd, rs1, rs2
  | regsImm  -- rd, rs1, imm
  | shift  -- rd, rs1, shamt
  | twoRegs  -- rd, rs1
  | load  -- rd, off(rs1)
  | store  -- rs2, off(rs1)
  | branch  -- rs1, rs2, off
  | upper  -- rd, imm20
  | jump  -- rd, off
  | jumpReg  -- rd, rs1, imm
  | fence  -- pred, succ
  | csr  -- rd, csr, rs1
  | csrImm  -- rd, csr, uimm
  | loadReserved  -- rd, (rs1)
  | atomic  -- rd, rs2, (rs1)
  | threeFloats  -- frd, frs1, frs2
  | twoFloats  -- frd, frs1
  | floatCompare  -- rd, frs1, frs2
  | floatToInt  -- rd, frs1
  | intToFloat  -- frd, rs1
  | fourFloats  -- frd, frs1, frs2, frs3
  | floatLoad  -- frd, off(rs1)
  | floatStore  -- frs2, off(rs1)
  | vectorVector  -- vd, vs2, vs1[, v0.t]
  | vectorInt  -- vd, vs2, rs1[, v0.t]
  | vectorImm  -- vd, vs2, imm[, v0.t]
  | vectorFloat  -- vd, vs2, frs1[, v0.t]
  | mergeVector  -- vd, vs2, vs1, v0
  | mergeInt  -- vd, vs2, rs1, v0
  | mergeImm  -- vd, vs2, imm, v0
  | moveVector  -- vd, vs1
  | moveInt  -- vd, rs1
  | moveImm  -- vd, imm
  | vectorLoad  -- vd, (rs1)[, v0.t]
  | vectorLoadStrided  -- vd, (rs1), rs2[, v0.t]
  | vectorLoadIndexed  -- vd, (rs1), vs2[, v0.t]
  | vectorStore  -- vs3, (rs1)[, v0.t]
  | vectorStoreStrided  -- vs3, (rs1), rs2[, v0.t]
  | vectorStoreIndexed  -- vs3, (rs1), vs2[, v0.t]
  | setVectorType  -- rd, rs1, vtype
  | setVectorTypeImm  -- rd, uimm, vtype
  | setVectorTypeReg  -- rd, rs1, rs2
  | shortTwoRegs  -- rd, rs2, in 16 bits
  | shortOneReg  -- rs1, in 16 bits
  | shortImm  -- rd, imm, in 16 bits
  | shortUpper  -- rd, imm20, in 16 bits
  | shortShift  -- rd, shamt, in 16 bits
  | shortAnd  -- rd', imm, in 16 bits
  | shortStackAdjust  -- sp, imm, in 16 bits
  | shortStackAddress  -- rd', sp, imm, in 16 bits
  | shortLoadStack  -- rd, off(sp), in 16 bits
  | shortStoreStack  -- rs2, off(sp), in 16 bits
  | shortLoad  -- rd', off(rs1'), in 16 bits
  | shortStore  -- rs2', off(rs1'), in 16 bits
  | shortPair  -- rd', rs2', in 16 bits
  | shortBranch  -- rs1', off, in 16 bits
  | shortJump  -- off, in 16 bits
  /-- A number without a form. -/
  | unassigned (code : Nat)
  deriving DecidableEq, Repr

namespace Form

/-- The forms in the order of their numbers. -/
def assigned : List Form :=
  [bare, threeRegs, regsImm, shift, twoRegs, load, store, branch, upper, jump, jumpReg, fence, csr,
   csrImm, loadReserved, atomic,
   threeFloats, twoFloats, floatCompare, floatToInt, intToFloat, fourFloats, floatLoad, floatStore,
   vectorVector, vectorInt, vectorImm, vectorFloat, mergeVector, mergeInt, mergeImm, moveVector,
   moveInt, moveImm, vectorLoad, vectorLoadStrided, vectorLoadIndexed, vectorStore,
   vectorStoreStrided, vectorStoreIndexed, setVectorType, setVectorTypeImm, setVectorTypeReg,
   shortTwoRegs, shortOneReg, shortImm, shortUpper, shortShift, shortAnd, shortStackAdjust,
   shortStackAddress, shortLoadStack, shortStoreStack, shortLoad, shortStore, shortPair,
   shortBranch, shortJump]

def ofCode (n : Nat) : Form := assigned.getD n (unassigned n)

def code : Form → Nat
  | unassigned n => n
  | form => assigned.idxOf form

/-- The forms of the atomic instructions, whose ordering bits are not part of the opcode. -/
def isAtomic : Form → Bool
  | atomic | loadReserved => true
  | _ => false

end Form

end RvCodec
