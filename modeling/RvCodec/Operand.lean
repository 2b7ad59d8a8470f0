import RvCodec.Word

/-!
# Operands

An operand says how one written argument of an instruction looks and where its contents are kept in
the word.  Which operands an instruction has follows from its form (see `Form`).
-/

set_option autoImplicit false

namespace RvCodec

/-! ## Fields -/

namespace Field

def rd : BitRange := ⟨11, 7⟩
def rs1 : BitRange := ⟨19, 15⟩
def rs2 : BitRange := ⟨24, 20⟩
def rs3 : BitRange := ⟨31, 27⟩
/-- The second source register of a 16-bit instruction. -/
def shortRs2 : BitRange := ⟨6, 2⟩
/-- The three-bit destination or base register of a 16-bit instruction. -/
def shortRd3 : BitRange := ⟨9, 7⟩
/-- The three-bit second register of a 16-bit instruction. -/
def shortRs3 : BitRange := ⟨4, 2⟩
/-- The accesses that come before a fence. -/
def fenceBefore : BitRange := ⟨27, 24⟩
/-- The accesses that come after a fence. -/
def fenceAfter : BitRange := ⟨23, 20⟩
def csr : BitRange := ⟨31, 20⟩
def rounding : BitRange := ⟨14, 12⟩
/-- The bit that says that a vector operation is not masked. -/
def unmasked : BitRange := ⟨25, 25⟩

/-- The register fields that have a name. -/
def named : List (BitRange × String) :=
  [(rd, "rd"), (rs1, "rs1"), (rs2, "rs2"), (rs3, "rs3"),
   (shortRs2, "rs2"), (shortRd3, "rd'"), (shortRs3, "rs2'")]

def name? (f : BitRange) : Option String := (named.find? (·.1 = f)).map (·.2)

end Field

/-! ## Operands -/

/-- The register that a memory operand counts from. -/
inductive BaseRegister where
  | integer (field : BitRange)
  /-- An integer register in three bits. -/
  | shortInteger (field : BitRange)
  /-- Always the stack pointer, which is not encoded. -/
  | stackPointer
  deriving DecidableEq, Repr

/-- One operand in an instruction's written form. -/
inductive Operand where
  /-- An integer register, perhaps with register zero or the stack pointer reserved. -/
  | integer (field : BitRange) (notZero notStack : Bool)
  | float (field : BitRange)
  | vector (field : BitRange)
  /-- An integer register in three bits. -/
  | shortInteger (field : BitRange)
  /-- A floating-point register in three bits. -/
  | shortFloat (field : BitRange)
  /-- The stack pointer, which is not encoded. -/
  | stackPointer
  /-- The main immediate, perhaps written as the upper twenty bits that it stands for. -/
  | immediate (upper : Bool)
  /-- The main immediate as an offset from a register. -/
  | memory (base : BaseRegister)
  /-- A register in parentheses, without an offset. -/
  | address (field : BitRange)
  | csr (field : BitRange)
  /-- A five-bit unsigned number. -/
  | smallNumber (field : BitRange)
  | fenceSet (field : BitRange)
  /-- A rounding mode, dynamic when left out. -/
  | roundingMode (field : BitRange)
  /-- The mask `v0.t`, which may be left out. -/
  | vectorMask (field : BitRange)
  /-- The register `v0`, which is not encoded. -/
  | mergeMask
  /-- A vector type, which takes all the remaining tokens. -/
  | vtype
  | unassigned
  deriving DecidableEq, Repr

namespace Operand

def isOptional : Operand → Bool
  | roundingMode _ | vectorMask _ => true
  | _ => false

/-- The short name of the operand's kind in the reference. -/
def kindName : Operand → String
  | integer _ _ _ => "ireg"
  | float _ => "freg"
  | vector _ => "vreg"
  | shortInteger _ => "creg"
  | shortFloat _ => "cfreg"
  | stackPointer => "sp"
  | immediate _ => "imm"
  | memory _ => "mem"
  | address _ => "addr"
  | csr _ => "csr"
  | smallNumber _ => "uimm5"
  | fenceSet _ => "fence"
  | roundingMode _ => "rm"
  | vectorMask _ => "vm"
  | mergeMask => "v0"
  | vtype => "vtype"
  | unassigned => "arg"

/-- What stands for the operand in a synopsis.  A vector register's placeholder is made from its
field's name, so there is none for an unnamed field. -/
def placeholder? : Operand → Option String
  | integer f _ _ | shortInteger f => some ((Field.name? f).getD "")
  | float f | shortFloat f => some ("f" ++ (Field.name? f).getD "")
  | vector f => (Field.name? f).map fun name => "v" ++ String.ofList (name.toList.drop 1)
  | stackPointer => some "sp"
  | immediate upper => some (if upper then "imm20" else "imm")
  | memory .stackPointer => some "off(sp)"
  | memory (.shortInteger _) => some "off(rs1')"
  | memory (.integer _) => some "off(rs1)"
  | address _ => some "(rs1)"
  | csr _ => some "csr"
  | smallNumber _ => some "uimm"
  | fenceSet f => some (if f = Field.fenceBefore then "pred" else "succ")
  | roundingMode _ => some "[rm]"
  | vectorMask _ => some "[v0.t]"
  | mergeMask => some "v0"
  | vtype => some "vtype"
  | unassigned => some "?"

end Operand

end RvCodec
