import RvCodec.Catalogue
import RvCodec.Encoding
import RvCodec.Options
import RvCodec.Pseudo
import RvCodec.Register
import RvCodec.Source
import RvCodec.Symbol
import RvCodec.VType

/-!
# Assembling

Assembly text, one instruction a line, becomes machine words.  A statement is first expanded if it is
a pseudo-instruction; each instruction is looked up, its operands are matched with what was written,
and every written operand is read as a value.  The values and the constant bits of the instruction
make up the word.

The only thing that passes from one instruction to the next is the tracker of register widths.  The
first fault ends the run and carries the number of its line.
-/

set_option autoImplicit false

namespace RvCodec

namespace Assembler

/-! ## Matching operands with tokens -/

/-- The token of each operand.  An optional operand that was left out has the empty token, and a
vector type at the end has all the remaining tokens, joined again. -/
def bind (i : Instruction) (operands : List Operand) (tokens : List String) :
    Except Fault (List String) :=
  let n := operands.length
  if operands.getLast? = some .vtype then
    if tokens.length < n then .error (.operandCount i.name n tokens.length)
    else .ok (tokens.take (n - 1) ++ [",".intercalate (tokens.drop (n - 1))])
  else
    let required := n - operands.countP (·.isOptional)
    if tokens.length < required ∨ n < tokens.length then
      .error (.operandCount i.name required tokens.length)
    else .ok (tokens ++ List.replicate (n - tokens.length) "")

/-! ## Reading operands -/

/-- Reads an integer register, some of which may be reserved. -/
def readInteger (opts : Options) (notZero notStack : Bool) (token : String) :
    Except Fault Word := do
  let r ← Register.parseInteger opts.embedded token
  if notZero && r == 0 then throw .zeroRegister
  if notStack && r == 2 then throw .stackPointerRegister
  return r

def readStackPointer (opts : Options) (token : String) : Except Fault Unit := do
  let r ← Register.parseInteger opts.embedded token
  if r ≠ 2 then throw (.notStackPointer token)

def readBase (opts : Options) (token : String) : BaseRegister → Except Fault Word
  | .integer _ => Register.parseInteger opts.embedded token
  | .shortInteger _ => Register.parseShortInteger opts.embedded token
  | .stackPointer => do
    readStackPointer opts token
    return 0

/-- The number that the written upper twenty bits stand for: the upper half of the range is
negative. -/
def foldUpper (v : Int) : Int := if 0x80000 ≤ v ∧ v < 0x100000 then v - 0x100000 else v

/-- Reads the main immediate, which may need wide registers if it is a shift amount. -/
def readImmediate (i : Instruction) (t : Tracker) (upper : Bool) (token : String) :
    Except Fault (Int × Tracker) := do
  let written ← Number.parse token
  let v := if upper then foldUpper written else written
  let t ← t.requireShift i v
  i.immediate.check v
  return (v, t)

/-- Reads an offset, zero when nothing is written. -/
def readOffset (i : Instruction) (token : String) : Except Fault Int := do
  let v ← if token.isEmpty then pure 0 else Number.parse token
  i.immediate.check v
  return v

/-- Reads an operand that leaves the tracker alone. -/
def readPlain (opts : Options) (i : Instruction) (token : String) :
    Operand → Except Fault Value
  | .integer _ notZero notStack => .field <$> readInteger opts notZero notStack token
  | .float _ => .field <$> Register.parse .float token
  | .vector _ => .field <$> Register.parse .vector token
  | .shortInteger _ => .field <$> Register.parseShortInteger opts.embedded token
  | .shortFloat _ => .field <$> Register.parseShortFloat token
  | .stackPointer => do
    readStackPointer opts token
    return .nothing
  | .memory base => do
    let (offset, register) ← Pseudo.splitMemory token
    let offset ← readOffset i offset
    let register ← readBase opts register base
    return .memory offset register
  | .address _ => do
    let (offset, register) ← Pseudo.splitMemory token
    if offset ≠ "" ∧ offset ≠ "0" then throw (.unexpectedOffset i.name token)
    .field <$> Register.parseInteger opts.embedded register
  | .csr _ => .field <$> Csr.parse token
  | .smallNumber _ => do
    let v ← Number.parseIn token ⟨5, true⟩
    return .field (Word.ofInt v)
  | .fenceSet _ => .field <$> FenceSet.parse token
  | .roundingMode _ =>
    if token.isEmpty then .ok (.field RoundingMode.dynamic)
    else .field <$> RoundingMode.parse token
  | .vectorMask _ =>
    if token.isEmpty then .ok (.field 1)
    else if Text.lower token = "v0.t" then .ok (.field 0)
    else .error (.badMask token)
  | .mergeMask =>
    if Text.lower token = "v0" then .ok .nothing
    else .error (.badMergeMask i.name token)
  | .vtype => .field <$> VType.parse (Source.tokens token) i.immediate.range.bits
  | .immediate _ | .unassigned => .error (.unassignedOperand token)

def readOperand (opts : Options) (i : Instruction) (t : Tracker) (token : String) :
    Operand → Except Fault (Value × Tracker)
  | .immediate upper => do
    let (v, t) ← readImmediate i t upper token
    return (.number v, t)
  | operand => do
    let v ← readPlain opts i token operand
    return (v, t)

def readOperands (opts : Options) (i : Instruction) :
    Tracker → List Operand → List String → Except Fault (List Value × Tracker)
  | t, operand :: operands, token :: tokens => do
    let (v, t) ← readOperand opts i t token operand
    let (vs, t) ← readOperands opts i t operands tokens
    return (v :: vs, t)
  | t, _, _ => .ok ([], t)

def readValues (opts : Options) (i : Instruction) (t : Tracker) (tokens : List String) :
    Except Fault (List Value × Tracker) := do
  let bound ← bind i i.operands tokens
  readOperands opts i t i.operands bound

/-! ## Statements -/

/-- The instruction that a mnemonic names, and the ordering bits of its ending. -/
def resolve (table : Table) (name : String) : Except Fault (Instruction × Word) :=
  match table.find? name with
  | some i => .ok (i, 0)
  | none =>
    let (stem, order) := MemoryOrder.split name
    if order = 0 then .error (.unsupportedInstruction name)
    else
      match table.find? stem with
      | some i => if i.isAtomic then .ok (i, order) else .error (.unsupportedInstruction name)
      | none => .error (.unsupportedInstruction name)

def readInstruction (opts : Options) (t : Tracker) (s : Statement) :
    Except Fault (Encoding × Tracker) := do
  let (i, order) ← resolve Table.default s.name
  opts.checkEnabled i
  let t ← t.requireInstruction i
  let (values, t) ← readValues opts i t s.operands
  return (⟨i, order, values⟩, t)

def readInstructions (opts : Options) :
    Tracker → List Statement → Except Fault (List Encoding × Tracker)
  | t, [] => .ok ([], t)
  | t, s :: rest => do
    let (e, t) ← readInstruction opts t s
    let (es, t) ← readInstructions opts t rest
    return (e :: es, t)

/-- The statement on a line: a mnemonic in any case, and operands. -/
def statement? (text : String) : Option Statement :=
  match Source.tokens text with
  | [] => none
  | name :: operands => some ⟨Text.lower name, operands⟩

def readLine (opts : Options) (t : Tracker) (text : String) :
    Except Fault (List Encoding × Tracker) :=
  match statement? text with
  | none => .ok ([], t)
  | some s => do
    let statements ← Pseudo.expand s
    readInstructions opts t statements

/-- Reads lines in order; a fault is reported at its line. -/
def readLines (opts : Options) :
    Tracker → List Source.Line → Except Error (List (List Encoding) × Tracker)
  | t, [] => .ok ([], t)
  | t, line :: rest =>
    match readLine opts t line.text with
    | .error fault => .error ⟨line.number, fault⟩
    | .ok (block, t) => do
      let (blocks, t) ← readLines opts t rest
      return (block :: blocks, t)

end Assembler

/-! ## Programs -/

/-- The outcome of assembling a text. -/
structure Assembly where
  /-- The encodings of each line that says something. -/
  blocks : List (List Encoding)
  xlen : Nat
  /-- Whether the width was fixed beforehand. -/
  mode : Mode
  deriving DecidableEq, Repr

namespace Assembly

def encodings (a : Assembly) : List Encoding := a.blocks.flatten

def words (a : Assembly) : List Word := a.encodings.map (·.word)

/-- The machine words as text, one a line. -/
def output (a : Assembly) : String := "\n".intercalate (a.words.map (·.text))

end Assembly

def assemble (source : String) (opts : Options) : Except Error Assembly := do
  let (blocks, t) ← Assembler.readLines opts opts.tracker (Source.lines source)
  return ⟨blocks, t.resolved, opts.mode⟩

end RvCodec
