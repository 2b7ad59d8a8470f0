import RvCodec.Extension
import RvCodec.Text.Quoted
import RvCodec.Word

/-!
# What can go wrong

A fault is a cause: what was asked for and why it cannot be had.  Each fault belongs to one of
eleven kinds, by which a caller can tell faults apart, and has one message for people.  The wording
of every message is in `Fault.message` and nowhere else.

An `Error` is a fault at a source line; line zero means that no line is known yet.  A `Failure` is
whatever ends a run: an error, or a plain report about the surroundings of the run (options, files)
that belongs to no kind.
-/

set_option autoImplicit false

namespace RvCodec

/-! ## Kinds -/

inductive FaultKind where
  | unsupportedInstruction
  | unknownOpcode
  | unsupportedEncoding
  | invalidRegister
  | invalidOperand
  | invalidMemoryOperand
  | immediateOutOfRange
  | immediateTooWide
  | misalignedOffset
  | xlenMismatch
  | operandCount
  deriving DecidableEq, Repr

namespace FaultKind

/-- What the kind is about, in a few words. -/
def description : FaultKind → String
  | unsupportedInstruction => "unsupported instruction"
  | unknownOpcode => "unknown opcode"
  | unsupportedEncoding => "unsupported encoding"
  | invalidRegister => "invalid register"
  | invalidOperand => "invalid operand"
  | invalidMemoryOperand => "invalid operand: malformed memory reference"
  | immediateOutOfRange => "immediate out of range"
  | immediateTooWide => "immediate too wide"
  | misalignedOffset => "misaligned offset"
  | xlenMismatch => "XLEN mismatch"
  | operandCount => "operand count mismatch"

end FaultKind

/-! ## Causes -/

inductive RegisterFile where
  | integer
  | float
  | vector
  deriving DecidableEq, Repr

/-- The letter in front of a register's number. -/
def RegisterFile.letter : RegisterFile → Char
  | integer => 'x'
  | float => 'f'
  | vector => 'v'

/-- A reason why some text is no instruction, or some word has no text. -/
inductive Fault where
  | badNumber (text : String)
  /-- The numeral denotes no 64-bit signed integer. -/
  | numberOutOfRange (text : String)
  | immediateOutOfRange (value : Int) (range : ImmRange)
  /-- The number is not a multiple of what its field counts in. -/
  | misalignedOffset (value align : Int)
  | zeroImmediate
  | unknownRegister (file : RegisterFile) (text : String)
  /-- The register is among the sixteen that the embedded variant leaves out. -/
  | registerNotEmbedded (text : String)
  /-- The register cannot be written in three bits. -/
  | registerNotShort (file : RegisterFile) (text : String)
  | notStackPointer (text : String)
  | zeroRegister
  | stackPointerRegister
  /-- The text is neither the name of a control register nor a number. -/
  | unknownCsr (text : String)
  | unknownRoundingMode (text : String)
  | badFenceSet (text : String)
  | missingVType
  /-- The text is no part of a vector type, or one that was given before. -/
  | badVTypeElement (text : String)
  | missingElementWidth
  | badMask (text : String)
  | badMergeMask (name text : String)
  | malformedMemory (text : String)
  | missingBase (text : String)
  /-- The instruction addresses memory without an offset. -/
  | unexpectedOffset (name text : String)
  | unassignedOperand (text : String)
  | operandCount (name : String) (want got : Nat)
  | unsupportedInstruction (name : String)
  | extensionDisabled (name : String) (ext : Extension)
  | constantTooWide (value : Int)
  /-- The constant to load has no upper and lower part. -/
  | constantUnsplittable (value : Int)
  | widthTooSmall (name : String) (lo mode : Nat)
  | widthTooLarge (name : String) (hi mode : Nat)
  /-- No width suits all the instructions seen so far. -/
  | widthConflict (name : String) (lo ceiling detected : Nat)
  | wordTooLarge (text : String)
  | upperHalfSet (w : Word)
  /-- The word that is defined never to be an instruction. -/
  | illegalWord (w : Word)
  | unknownOpcode (w : Word)
  /-- The word would be this instruction, but with a reserved operand. -/
  | reservedEncoding (w : Word) (name what : String)
  /-- No enabled instruction has the word as an encoding. -/
  | noInstruction (w : Word)
  | registerAbsent (w : Word) (register : Nat)
  | unwritableOperand (w : Word) (name : String)
  /-- A fault of a kind, in the reporter's own words. -/
  | remark (kind : FaultKind) (text : String)
  deriving DecidableEq, Repr

namespace Fault

/-- The kind a fault belongs to. -/
def kind : Fault → FaultKind
  | badNumber _ | numberOutOfRange _ => .invalidOperand
  | immediateOutOfRange _ _ | zeroImmediate => .immediateOutOfRange
  | misalignedOffset _ _ => .misalignedOffset
  | unknownRegister _ _ | registerNotEmbedded _ | registerNotShort _ _ => .invalidRegister
  | notStackPointer _ | zeroRegister | stackPointerRegister => .invalidRegister
  | unknownCsr _ | unknownRoundingMode _ | badFenceSet _ => .invalidOperand
  | missingVType => .operandCount
  | badVTypeElement _ | missingElementWidth => .invalidOperand
  | badMask _ | badMergeMask _ _ | unassignedOperand _ => .invalidOperand
  | malformedMemory _ | missingBase _ | unexpectedOffset _ _ => .invalidMemoryOperand
  | operandCount _ _ _ => .operandCount
  | unsupportedInstruction _ | extensionDisabled _ _ => .unsupportedInstruction
  | constantTooWide _ | constantUnsplittable _ => .immediateTooWide
  | widthTooSmall _ _ _ | widthTooLarge _ _ _ | widthConflict _ _ _ _ => .xlenMismatch
  | wordTooLarge _ => .invalidOperand
  | upperHalfSet _ | illegalWord _ | reservedEncoding _ _ _ => .unsupportedEncoding
  | noInstruction _ | unwritableOperand _ _ => .unsupportedEncoding
  | unknownOpcode _ => .unknownOpcode
  | registerAbsent _ _ => .invalidRegister
  | remark kind _ => kind

def message : Fault → String
  | badNumber text => s!"invalid number {Text.quoted text}"
  | numberOutOfRange text => s!"number {Text.quoted text} out of range"
  | immediateOutOfRange v r =>
    s!"immediate {Text.decimal v} out of range for {Text.numeral 10 r.bits}-bit {r.signedness} field "
      ++ s!"[{Text.decimal r.lo}, {Text.decimal r.hi}]"
  | misalignedOffset v align => s!"offset {Text.decimal v} is not a multiple of {Text.decimal align}"
  | zeroImmediate => "immediate must not be zero"
  | unknownRegister .integer text => s!"invalid register {Text.quoted text}"
  | unknownRegister .float text => s!"invalid floating-point register {Text.quoted text}"
  | unknownRegister .vector text => s!"invalid vector register {Text.quoted text}"
  | registerNotEmbedded text =>
    s!"register {Text.quoted text} is not available in the embedded variant"
  | registerNotShort file text =>
    let x := file.letter.toString
    s!"register {Text.quoted text} cannot be used in a compressed instruction ({x}8 to {x}15 only)"
  | notStackPointer text => s!"expected sp, got {Text.quoted text}"
  | zeroRegister => "x0 cannot be used here"
  | stackPointerRegister => "sp cannot be used here"
  | unknownCsr text => s!"unknown CSR {Text.quoted text}"
  | unknownRoundingMode text => s!"invalid rounding mode {Text.quoted text}"
  | badFenceSet text => s!"invalid fence set {Text.quoted text}"
  | missingVType => "missing vtype operand"
  | badVTypeElement text => s!"invalid vtype element {Text.quoted text}"
  | missingElementWidth => "vtype is missing the element width"
  | badMask text => s!"expected v0.t, got {Text.quoted text}"
  | badMergeMask name text => s!"{name} takes its mask from v0, got {Text.quoted text}"
  | malformedMemory text => s!"expected offset(register), got {Text.quoted text}"
  | missingBase text => s!"missing base register in {Text.quoted text}"
  | unexpectedOffset name text => s!"{name} takes no offset, got {Text.quoted text}"
  | unassignedOperand text => s!"unhandled operand {Text.quoted text}"
  | operandCount name want got =>
    s!"{name} expects {Text.numeral 10 want} operands, got {Text.numeral 10 got}"
  | unsupportedInstruction name => s!"unsupported instruction {Text.quoted name}"
  | extensionDisabled name ext => s!"{name} requires the {ext.name} extension, which is disabled"
  | constantTooWide v => s!"li immediate {Text.decimal v} does not fit in 32 bits"
  | constantUnsplittable v => s!"li immediate {Text.decimal v} cannot be split into lui and addi"
  | widthTooSmall name lo mode =>
    s!"{name} requires XLEN {Text.numeral 10 lo} or wider, but XLEN is {Text.numeral 10 mode}"
  | widthTooLarge name hi mode =>
    s!"{name} is only available with XLEN {Text.numeral 10 hi}, but XLEN is {Text.numeral 10 mode}"
  | widthConflict name lo ceiling detected =>
    s!"{name} needs XLEN between {Text.numeral 10 lo} and {Text.numeral 10 ceiling}, "
      ++ s!"but other instructions need XLEN {Text.numeral 10 detected}"
  | wordTooLarge text => s!"machine word {Text.quoted text} does not fit in 32 bits"
  | upperHalfSet w => s!"compressed instruction {w.text} has bits set above bit 15"
  | illegalWord w => s!"{w.text} is the defined illegal instruction"
  | unknownOpcode w => s!"unknown opcode in {w.text}"
  | reservedEncoding w name what => s!"{w.text}: {name} with {what} is reserved"
  | noInstruction w => s!"no instruction matches {w.text}"
  | registerAbsent w register =>
    s!"{w.text}: register x{Text.numeral 10 register} does not exist in the embedded variant"
  | unwritableOperand w name => s!"{w.text}: cannot format operand of {name}"
  | remark kind text => if text.isEmpty then kind.description else text

end Fault

/-! ## Errors at a line -/

/-- A fault, with the source line it was found in, or zero while that is unknown. -/
structure Error where
  line : Int
  fault : Fault
  deriving DecidableEq, Repr

namespace Error

/-- A fault whose line is not known yet. -/
def ofFault (fault : Fault) : Error := ⟨0, fault⟩

def message (e : Error) : String :=
  if 0 < e.line then s!"Line {Text.decimal e.line}: {e.fault.message}" else e.fault.message

/-- Attaches a line to an error that has none. -/
def atLine (e : Error) (line : Int) : Error := if e.line = 0 then { e with line } else e

end Error

/-! ## Failures of a run -/

/-- Whatever ends a run without a result. -/
inductive Failure where
  /-- An error in the text or word being converted. -/
  | error (e : Error)
  /-- A report about the run's surroundings, in words alone. -/
  | report (text : String)
  deriving DecidableEq, Repr

namespace Failure

def message : Failure → String
  | error e => e.message
  | report text => text

/-- Attaches a line.  A report about the surroundings becomes an invalid operand of that line. -/
def atLine (line : Int) : Failure → Failure
  | error e => error (e.atLine line)
  | report text => error ⟨line, .remark .invalidOperand text⟩

end Failure

end RvCodec
