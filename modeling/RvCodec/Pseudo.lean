import RvCodec.Number

/-!
# Pseudo-instructions

Some mnemonics have no encoding and stand for other instructions.  Most of them rearrange their
operands into one instruction and are listed in a table.  `li` loads a constant with one or two
instructions, and the jumps and the fence have short forms that differ from the full ones in the
number of operands only.
-/

set_option autoImplicit false

namespace RvCodec

/-- A mnemonic and its operands as they were written. -/
structure Statement where
  name : String
  operands : List String
  deriving DecidableEq, Repr

namespace Pseudo

/-! ## The table -/

/-- A place in the instruction that a pseudo-instruction stands for. -/
inductive Slot where
  /-- The operand written at this position. -/
  | operand (position : Nat)
  | text (s : String)
  deriving DecidableEq, Repr

/-- A pseudo-instruction that stands for one instruction. -/
structure Rule where
  name : String
  arity : Nat
  target : String
  slots : List Slot
  deriving DecidableEq, Repr

namespace Rule

def fill (operands : List String) : Slot → String
  | .operand n => operands.getD n ""
  | .text s => s

/-- The instruction that the operands make of the rule. -/
def apply (r : Rule) (operands : List String) : Statement :=
  ⟨r.target, r.slots.map (fill operands)⟩

end Rule

/-- The zero register as a slot. -/
def zero : Slot := .text "x0"

def integerRules : List Rule :=
  [⟨"nop", 0, "addi", [zero, zero, .text "0"]⟩,
   ⟨"mv", 2, "addi", [.operand 0, .operand 1, .text "0"]⟩,
   ⟨"not", 2, "xori", [.operand 0, .operand 1, .text "-1"]⟩,
   ⟨"neg", 2, "sub", [.operand 0, zero, .operand 1]⟩,
   ⟨"negw", 2, "subw", [.operand 0, zero, .operand 1]⟩,
   ⟨"sext.w", 2, "addiw", [.operand 0, .operand 1, .text "0"]⟩,
   ⟨"seqz", 2, "sltiu", [.operand 0, .operand 1, .text "1"]⟩,
   ⟨"snez", 2, "sltu", [.operand 0, zero, .operand 1]⟩,
   ⟨"sltz", 2, "slt", [.operand 0, .operand 1, zero]⟩,
   ⟨"sgtz", 2, "slt", [.operand 0, zero, .operand 1]⟩]

def branchRules : List Rule :=
  [⟨"j", 1, "jal", [zero, .operand 0]⟩,
   ⟨"jr", 1, "jalr", [zero, .operand 0, .text "0"]⟩,
   ⟨"ret", 0, "jalr", [zero, .text "x1", .text "0"]⟩,
   ⟨"beqz", 2, "beq", [.operand 0, zero, .operand 1]⟩,
   ⟨"bnez", 2, "bne", [.operand 0, zero, .operand 1]⟩,
   ⟨"blez", 2, "bge", [zero, .operand 0, .operand 1]⟩,
   ⟨"bgez", 2, "bge", [.operand 0, zero, .operand 1]⟩,
   ⟨"bltz", 2, "blt", [.operand 0, zero, .operand 1]⟩,
   ⟨"bgtz", 2, "blt", [zero, .operand 0, .operand 1]⟩,
   ⟨"bgt", 3, "blt", [.operand 1, .operand 0, .operand 2]⟩,
   ⟨"ble", 3, "bge", [.operand 1, .operand 0, .operand 2]⟩,
   ⟨"bgtu", 3, "bltu", [.operand 1, .operand 0, .operand 2]⟩,
   ⟨"bleu", 3, "bgeu", [.operand 1, .operand 0, .operand 2]⟩]

/-- Accesses to control registers without a destination or a source. -/
def controlRules : List Rule :=
  [⟨"csrr", 2, "csrrs", [.operand 0, .operand 1, zero]⟩,
   ⟨"csrw", 2, "csrrw", [zero, .operand 0, .operand 1]⟩,
   ⟨"csrs", 2, "csrrs", [zero, .operand 0, .operand 1]⟩,
   ⟨"csrc", 2, "csrrc", [zero, .operand 0, .operand 1]⟩,
   ⟨"csrwi", 2, "csrrwi", [zero, .operand 0, .operand 1]⟩,
   ⟨"csrsi", 2, "csrrsi", [zero, .operand 0, .operand 1]⟩,
   ⟨"csrci", 2, "csrrci", [zero, .operand 0, .operand 1]⟩]

/-- Moves and sign changes of one floating-point precision. -/
def floatRules (ending : String) : List Rule :=
  let twice : List Slot := [.operand 0, .operand 1, .operand 1]
  [⟨"fmv" ++ ending, 2, "fsgnj" ++ ending, twice⟩,
   ⟨"fneg" ++ ending, 2, "fsgnjn" ++ ending, twice⟩,
   ⟨"fabs" ++ ending, 2, "fsgnjx" ++ ending, twice⟩]

/-- All pseudo-instructions that stand for one instruction. -/
def rules : List Rule :=
  integerRules ++ branchRules ++ controlRules ++ floatRules ".s" ++ floatRules ".d" ++ floatRules ".q"

/-! ## Memory references -/

/-- The parts of `offset(base)`; the offset may be empty. -/
def splitMemory (text : String) : Except Fault (String × String) :=
  let cs := text.toList
  let offset := cs.takeWhile (· ≠ '(')
  let rest := cs.drop (offset.length + 1)
  if cs.count '(' ≠ 1 ∨ cs.count ')' ≠ 1 ∨ cs.getLast? ≠ some ')' then
    .error (.malformedMemory text)
  else
    let base := rest.dropLast
    if base.isEmpty then .error (.missingBase text)
    else .ok (String.ofList offset, String.ofList base)

/-! ## Constants -/

def smallRange : ImmRange := ⟨12, false⟩

/-- The instructions that load a constant: one addition if it fits in twelve bits, otherwise the
rounded upper twenty bits and the addition of what remains. -/
def loadConstant (rd literal : String) : Except Fault (List Statement) := do
  let v ← Number.parse literal
  if smallRange.contains v then
    return [⟨"addi", [rd, "x0", Text.decimal v]⟩]
  if v < -0x80000000 ∨ 0xffffffff < v then
    throw (.constantTooWide v)
  let v := Int.bmod v 0x100000000
  let upper := (v + 0x800) / 0x1000
  let lower := v - upper * 0x1000
  if !smallRange.contains lower then
    throw (.constantUnsplittable v)
  return [⟨"lui", [rd, Text.decimal (upper % 0x100000)]⟩, ⟨"addi", [rd, rd, Text.decimal lower]⟩]

/-! ## Expansion -/

/-- The short forms of full instructions, told apart by the number of operands. -/
def shortForm? (s : Statement) : Option (Except Fault (List Statement)) :=
  match s.operands with
  | [] => if s.name = "fence" then some (.ok [⟨"fence", ["iorw", "iorw"]⟩]) else none
  | [target] =>
    if s.name = "jal" then some (.ok [⟨"jal", ["x1", target]⟩])
    else if s.name = "jalr" then some (.ok [⟨"jalr", ["x1", target, "0"]⟩])
    else none
  | [rd, memory] =>
    if s.name = "jalr" then some do
      let (offset, base) ← splitMemory memory
      return [⟨"jalr", [rd, base, if offset.isEmpty then "0" else offset]⟩]
    else none
  | _ => none

def expandConstant : List String → Except Fault (List Statement)
  | [rd, literal] => loadConstant rd literal
  | operands => .error (.operandCount "li" 2 operands.length)

/-- The instructions that a statement stands for, or none if it stands for itself. -/
def expand? (s : Statement) : Option (Except Fault (List Statement)) :=
  if s.name = "li" then some (expandConstant s.operands)
  else
    match shortForm? s with
    | some expansion => some expansion
    | none =>
      (rules.find? (·.name = s.name)).map fun rule =>
        if s.operands.length = rule.arity then .ok [rule.apply s.operands]
        else .error (.operandCount s.name rule.arity s.operands.length)

/-- The instructions that a statement stands for. -/
def expand (s : Statement) : Except Fault (List Statement) := (expand? s).getD (.ok [s])

end Pseudo

end RvCodec
