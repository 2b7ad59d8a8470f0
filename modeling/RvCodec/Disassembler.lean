import RvCodec.Catalogue
import RvCodec.Encoding
import RvCodec.Options
import RvCodec.Register
import RvCodec.Source
import RvCodec.Symbol
import RvCodec.VType

/-!
# Disassembling

Machine words become assembly text.  A word is looked up by its key; among the candidates the first
one counts that covers the word, is switched on, exists at the configured width and does not have
the word as a reserved encoding.  The chosen instruction's operands are taken from the word and
written out.

As in assembling, only the tracker of register widths passes from one word to the next, and the
first fault ends the run with the number of its line.
-/

set_option autoImplicit false

namespace RvCodec

namespace Disassembler

/-! ## Reading words -/

/-- A hexadecimal digit of either case. -/
def isHexDigit (c : Char) : Bool := (Text.digitValue? 16 c).isSome

/-- The value of exactly eight hexadecimal digits. -/
def bareWord? (token : String) : Option Nat :=
  let cs := token.toList
  if cs.length = 8 ∧ cs.all isHexDigit then Text.readNat? 16 cs else none

/-- The word that a token denotes: eight bare hexadecimal digits, or any number that fits. -/
def parseWord (token : String) : Except Fault Word :=
  match bareWord? token with
  | some n => .ok (BitVec.ofNat 32 n)
  | none => do
    let v ← Number.parse token
    if v < 0 ∨ 0x100000000 ≤ v then throw (.wordTooLarge token)
    return Word.ofInt v

/-! ## Choosing the instruction -/

def isShort (w : Word) : Bool := w &&& 3 ≠ 3

/-- Refuses a 16-bit word with a non-empty upper half, and the word that is never an instruction. -/
def screen (w : Word) : Except Fault Unit :=
  if isShort w && w.down 16 != 0 then .error (.upperHalfSet w)
  else if w = 0 then .error (.illegalWord w)
  else .ok ()

/-- What the search among the candidates has come across so far. -/
structure Search where
  /-- The first instruction that the width rules out. -/
  excluded : Option Instruction := none
  /-- The first instruction that has the word as a reserved encoding, and why. -/
  reserved : Option (Instruction × Reservation) := none

/-- The fault of a search that found nothing. -/
def Search.fault (s : Search) (t : Tracker) (w : Word) : Fault :=
  match s.reserved with
  | some (i, why) => .reservedEncoding w i.name why.text
  | none =>
    match s.excluded with
    | some i =>
      match t.requireInstruction i with
      | .error fault => fault
      | .ok _ => .noInstruction w
    | none => .noInstruction w

/-- The first of the candidates that can be read from the word. -/
def search (opts : Options) (t : Tracker) (w : Word) :
    Search → List Instruction → Except Fault Instruction
  | s, [] => .error (s.fault t w)
  | s, i :: rest =>
    if !i.covers w || !opts.enables i.ext then search opts t w s rest
    else if !t.allowsInstruction i then
      search opts t w { s with excluded := s.excluded.or (some i) } rest
    else
      match i.reserved? w with
      | some why => search opts t w { s with reserved := s.reserved.or (some (i, why)) } rest
      | none => .ok i

/-- The instruction that a word encodes. -/
def choose (table : Table) (opts : Options) (t : Tracker) (w : Word) : Except Fault Instruction :=
  match table.candidates (Key.ofWord w) with
  | [] => .error (.unknownOpcode w)
  | candidates => search opts t w {} candidates

/-! ## Writing operands -/

/-- Writes an integer register that the variant in use has. -/
def writeInteger (opts : Options) (w r : Word) : Except Fault String :=
  if opts.embedded && 15#32 < r then .error (.registerAbsent w r.toNat)
  else .ok (Register.text .integer r)

def writeBase (opts : Options) (w r : Word) : BaseRegister → Except Fault String
  | .integer _ => writeInteger opts w r
  | .shortInteger _ => .ok (Register.text .integer (Register.lengthen r))
  | .stackPointer => .ok (Register.text .integer 2)

/-- Writes the value of an operand; an optional one that has its default is left out. -/
def writeOperand (opts : Options) (i : Instruction) (w : Word) :
    Operand → Value → Except Fault (Option String)
  | .integer _ _ _, .field r => some <$> writeInteger opts w r
  | .float _, .field r => .ok (some (Register.text .float r))
  | .vector _, .field r => .ok (some (Register.text .vector r))
  | .shortInteger _, .field r => .ok (some (Register.text .integer (Register.lengthen r)))
  | .shortFloat _, .field r => .ok (some (Register.text .float (Register.lengthen r)))
  | .stackPointer, _ => .ok (some (Register.text .integer 2))
  | .immediate upper, .number v =>
    .ok (some (Number.text (if upper then v % 0x100000 else v) opts.base))
  | .memory base, .memory offset r => do
    let register ← writeBase opts w r base
    return some (Number.text offset opts.base ++ "(" ++ register ++ ")")
  | .address _, .field r => do
    let register ← writeInteger opts w r
    return some ("(" ++ register ++ ")")
  | .csr _, .field n => .ok (some (Csr.text n opts.base))
  | .smallNumber _, .field n => .ok (some (Number.text n.toNat opts.base))
  | .fenceSet _, .field set => .ok (some (FenceSet.text set))
  | .roundingMode _, .field mode =>
    .ok (if mode = RoundingMode.dynamic then none else RoundingMode.name? mode)
  | .vectorMask _, .field unmasked => .ok (if unmasked = 0 then some "v0.t" else none)
  | .mergeMask, _ => .ok (some "v0")
  | .vtype, .field v => .ok (some (VType.text v opts.base))
  | _, _ => .error (.unwritableOperand w i.name)

/-- The width that an operand's value needs. -/
def requireOperand (i : Instruction) (t : Tracker) : Operand → Value → Except Fault Tracker
  | .immediate _, .number v => t.requireShift i v
  | _, _ => .ok t

def writeOperands (opts : Options) (i : Instruction) (w : Word) :
    Tracker → List Operand → List Value → Except Fault (List String × Tracker)
  | t, operand :: operands, v :: vs => do
    let t ← requireOperand i t operand v
    let text ← writeOperand opts i w operand v
    let (texts, t) ← writeOperands opts i w t operands vs
    return (text.toList ++ texts, t)
  | t, _, _ => .ok ([], t)

def writeEncoding (opts : Options) (t : Tracker) (w : Word) (e : Encoding) :
    Except Fault (String × Tracker) := do
  let (texts, t) ← writeOperands opts e.instruction w t e.instruction.operands e.values
  if texts.isEmpty then return (e.mnemonic, t)
  return (e.mnemonic ++ " " ++ ", ".intercalate texts, t)

/-! ## Words and lines -/

/-- A word together with what it was read as. -/
structure Reading where
  word : Word
  instruction : Instruction
  text : String
  deriving DecidableEq, Repr

def readWord (opts : Options) (t : Tracker) (w : Word) : Except Fault (Reading × Tracker) := do
  screen w
  let i ← choose Table.default opts t w
  let t ← t.requireInstruction i
  let (text, t) ← writeEncoding opts t w (.ofWord i w)
  return (⟨w, i, text⟩, t)

/-- Reads the words that tokens denote. -/
def readTokens (opts : Options) : Tracker → List String → Except Fault (List Reading × Tracker)
  | t, [] => .ok ([], t)
  | t, token :: rest => do
    let w ← parseWord token
    let (reading, t) ← readWord opts t w
    let (readings, t) ← readTokens opts t rest
    return (reading :: readings, t)

/-- Reads lines in order; a fault is reported at its line. -/
def readLines (opts : Options) :
    Tracker → List Source.Line → Except Error (List (List Reading) × Tracker)
  | t, [] => .ok ([], t)
  | t, line :: rest =>
    match readTokens opts t (Source.tokens line.text) with
    | .error fault => .error ⟨line.number, fault⟩
    | .ok (block, t) => do
      let (blocks, t) ← readLines opts t rest
      return (block :: blocks, t)

end Disassembler

/-! ## Programs -/

/-- The outcome of disassembling a text. -/
structure Disassembly where
  /-- The readings of each line that says something. -/
  blocks : List (List Disassembler.Reading)
  xlen : Nat
  mode : Mode
  deriving DecidableEq, Repr

namespace Disassembly

def readings (d : Disassembly) : List Disassembler.Reading := d.blocks.flatten

def lines (d : Disassembly) : List String := d.readings.map (·.text)

/-- The instructions as text, one a line. -/
def output (d : Disassembly) : String := "\n".intercalate d.lines

end Disassembly

def disassemble (source : String) (opts : Options) : Except Error Disassembly := do
  let (blocks, t) ← Disassembler.readLines opts opts.tracker (Source.lines source)
  return ⟨blocks, t.resolved, opts.mode⟩

end RvCodec
