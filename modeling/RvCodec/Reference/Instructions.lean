import RvCodec.Catalogue
import RvCodec.Options

/-!
# The indices of instructions

Two documents of the reference list instructions, by the key under which they are looked up and by
extension.  The first links to the rows of the second.
-/

set_option autoImplicit false

namespace RvCodec.Reference

/-!
## Headings

The reference links to its own headings.  The anchor of a heading is what a renderer of the document
makes of it: the runs of letters and digits in lower case, with a hyphen between them.  Opcode names
in capitals are also shown as titles, in which every word starts with a capital.
-/

/-- A character that is kept in anchors and titles. -/
def isWordChar (c : Char) : Bool := Text.isDecimalDigit c || Text.isLetter c

def anchor (heading : String) : String :=
  "-".intercalate ((Text.fieldChars (fun c => !isWordChar c) heading.toList).map fun run =>
    String.ofList (run.map Text.lowerChar))

/-- The characters of a title, given whether the next letter is a capital.  A letter is a capital
unless it follows another letter. -/
def titleChars : Bool → List Char → List Char
  | _, [] => []
  | capital, c :: cs =>
    if Text.isDecimalDigit c then c :: titleChars true cs
    else if Text.isLetter c then
      (if capital then Text.upperChar c else Text.lowerChar c) :: titleChars false cs
    else titleChars true cs

/-- The title of an opcode name: `OP-IMM-32` is shown as `OpImm32`. -/
def title (name : String) : String := String.ofList (titleChars true name.toList)

/-!
## The opcode index

One row for each key of a table, with links to the instructions of that key in the order in which
they are tried.  The rows are data; `opcodeIndex` writes them out.
-/

/-- A link to an instruction's row. -/
structure Link where
  name : String
  target : String
  deriving DecidableEq, Repr

def Link.ofInstruction (i : Instruction) : Link := ⟨i.name, anchor i.name⟩

def Link.text (l : Link) : String := "[" ++ l.name ++ "](instructions.md#" ++ l.target ++ ")"

/-- The instructions of one key. -/
structure OpcodeRow where
  key : Key
  links : List Link
  deriving DecidableEq, Repr

namespace OpcodeRow

/-- The name of the key, with its title if it is an opcode. -/
def label (r : OpcodeRow) : String :=
  if r.key.isLong then r.key.name ++ " (`" ++ title r.key.name ++ "`)" else r.key.name

def text (r : OpcodeRow) : String :=
  "| `" ++ r.key.bitText ++ "` | " ++ r.label ++ " | " ++ ", ".intercalate (r.links.map (·.text))
    ++ " |"

end OpcodeRow

/-- The rows of a table's index, by ascending key. -/
def opcodeRows (t : Table) : List OpcodeRow :=
  t.keys.map fun k => ⟨k, (t.candidates k).map Link.ofInstruction⟩

def opcodeIndex (t : Table) : String :=
  Text.unlines
    (["# Opcode index",
      "",
      "Instructions are looked up by their major opcode, or for compressed",
      "instructions by funct3 and quadrant. Within a group the first matching",
      "entry wins.",
      "",
      "| Key | Name | Instructions |",
      "|---|---|---|"]
      ++ (opcodeRows t).map (·.text))

/-!
## The list of instructions

The instructions of a table by extension and base: a section for each extension and each register
width from which some of its instructions exist.  An instruction that exists at 32 bits is listed
there; any other one at the width that it needs.
-/

/-- The row of an instruction, and the anchor by which it is linked. -/
structure InstructionRow where
  target : String
  instruction : Instruction
  deriving DecidableEq, Repr

namespace InstructionRow

def ofInstruction (i : Instruction) : InstructionRow := ⟨anchor i.name, i⟩

/-- Constant bits, at the width of the instruction. -/
def bitText (i : Instruction) (w : Word) : String := if i.isShort then w.halfBitText else w.bitText

def text (r : InstructionRow) : String :=
  let i := r.instruction
  "| <a id=\"" ++ r.target ++ "\"></a>`" ++ i.name ++ "` | `" ++ i.synopsis ++ "` | "
    ++ i.format.name ++ " | " ++ " ".intercalate (i.operands.map (·.kindName)) ++ " | `"
    ++ bitText i i.mask ++ "` | `" ++ bitText i i.test ++ "` |"

end InstructionRow

/-- The instructions of an extension that come with one width. -/
structure InstructionSection where
  xlen : Nat
  group : Group
  rows : List InstructionRow

namespace InstructionSection

def lines (s : InstructionSection) : List String :=
  ["",
   "## RV" ++ Text.numeral 10 s.xlen ++ s.group.ext.letter.toString ++ ": " ++ s.group.title,
   "",
   "| Instruction | Synopsis | Format | Operands | Mask | Test |",
   "|---|---|---|---|---|---|"]
    ++ s.rows.map (·.text)

end InstructionSection

/-- The instruction is listed at this width. -/
def listedAt (xlen : Nat) (i : Instruction) : Bool :=
  (Tracker.start (some xlen)).allowsInstruction i && (xlen == 32 || i.requiredXlen == xlen)

/-- The section of a group at a width. -/
def instructionSection (t : Table) (g : Group) (xlen : Nat) : InstructionSection :=
  ⟨xlen, g,
    ((g.instructions.filterMap fun i => t.find? i.name).filter (listedAt xlen)).map
      InstructionRow.ofInstruction⟩

/-- The sections of a table that are not empty. -/
def instructionSections (t : Table) : List InstructionSection :=
  (Catalogue.groups.flatMap fun g => [32, 64, 128].map (instructionSection t g)).filter
    fun s => !s.rows.isEmpty

def instructionIndex (t : Table) : String :=
  Text.unlines ("# Instructions" :: (instructionSections t).flatMap (·.lines))

end RvCodec.Reference
