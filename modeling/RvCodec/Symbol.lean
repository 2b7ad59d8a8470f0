import RvCodec.Number

/-!
# Codes with names

Some fields of a word are written by name: the rounding mode, the accesses of a fence, the ordering
of an atomic instruction and the control register.
-/

set_option autoImplicit false

namespace RvCodec

/-!
## Rounding modes

Floating-point arithmetic rounds as a 3-bit field says: one of five modes, or dynamically as a
control register says.  The remaining two values are reserved.
-/

namespace RoundingMode

/-- The rounding modes and their names. -/
def table : List (Nat × String) :=
  [(0, "rne"), (1, "rtz"), (2, "rdn"), (3, "rup"), (4, "rmm"), (7, "dyn")]

/-- The mode that leaves the choice to a control register. -/
def dynamic : Word := 7

def parse (text : String) : Except Fault Word :=
  match table.find? (·.2 = Text.lower text) with
  | some (mode, _) => .ok (BitVec.ofNat 32 mode)
  | none => .error (.unknownRoundingMode text)

/-- The name of a mode that is not reserved. -/
def name? (mode : Word) : Option String := (table.find? (·.1 = mode.toNat)).map (·.2)

end RoundingMode

/-!
## Fence sets

A fence orders some kinds of accesses before others: input, output, reads and writes.  A set of
kinds is four bits, written as the letters of its members, or `0` when it is empty.
-/

namespace FenceSet

/-- The access kinds, from the highest bit down. -/
def letters : List (Char × Word) := [('i', 8), ('o', 4), ('r', 2), ('w', 1)]

def bit? (c : Char) : Option Word := (letters.find? (·.1 = c)).map (·.2)

/-- Adds letters to a set, none of them twice. -/
def addLetters : Word → List Char → Option Word
  | set, [] => some set
  | set, c :: cs =>
    match bit? c with
    | some bit => if set &&& bit = 0 then addLetters (set ||| bit) cs else none
    | none => none

def parse (text : String) : Except Fault Word :=
  let t := Text.lower text
  if t = "0" then .ok 0
  else
    match addLetters 0 t.toList with
    | some set => if set = 0 then .error (.badFenceSet text) else .ok set
    | none => .error (.badFenceSet text)

def text (set : Word) : String :=
  if set &&& 0xf = 0 then "0"
  else String.ofList ((letters.filter fun l => set &&& l.2 ≠ 0).map (·.1))

end FenceSet

/-!
## Memory ordering of atomic instructions

An atomic instruction may acquire, release or both.  Its word holds two bits for that, and its
mnemonic shows them in an ending: `.aq`, `.rl` or `.aqrl`.
-/

namespace MemoryOrder

/-- Where the acquire and release bits are. -/
def field : BitRange := ⟨26, 25⟩

/-- The endings and their bits, in the order in which they are looked for. -/
def endings : List (String × Word) := [(".aqrl", 3), (".aq", 2), (".rl", 1)]

def splitEnding : List (String × Word) → List Char → Option (List Char × Word)
  | [], _ => none
  | (ending, bits) :: rest, cs =>
    match Text.beforeEnd? ending.toList cs with
    | some stem => some (stem, bits)
    | none => splitEnding rest cs

/-- A mnemonic without its ordering ending, and the bits of the ending, zero if it has none. -/
def split (name : String) : String × Word :=
  match splitEnding endings name.toList with
  | some (stem, bits) => (String.ofList stem, bits)
  | none => (name, 0)

def ending (bits : Word) : String :=
  let low := bits &&& 3
  if low = 3 then ".aqrl" else if low = 2 then ".aq" else if low = 1 then ".rl" else ""

def get (w : Word) : Word := field.get w

/-- A word with ordering bits added. -/
def set (w bits : Word) : Word := w ||| field.put bits

end MemoryOrder

/-!
## Control and status registers

A control register is a 12-bit number, and the usual ones have names.  An operand may be written
either way; it is written back by name where there is one.
-/

namespace Csr

def table : List (Nat × String) :=
  [(0x001, "fflags"), (0x002, "frm"), (0x003, "fcsr"),
   (0x008, "vstart"), (0x009, "vxsat"), (0x00a, "vxrm"), (0x00f, "vcsr"),
   (0x100, "sstatus"), (0x104, "sie"), (0x105, "stvec"), (0x106, "scounteren"),
   (0x140, "sscratch"), (0x141, "sepc"), (0x142, "scause"), (0x143, "stval"), (0x144, "sip"),
   (0x180, "satp"),
   (0x300, "mstatus"), (0x301, "misa"), (0x302, "medeleg"), (0x303, "mideleg"),
   (0x304, "mie"), (0x305, "mtvec"), (0x306, "mcounteren"),
   (0x340, "mscratch"), (0x341, "mepc"), (0x342, "mcause"), (0x343, "mtval"), (0x344, "mip"),
   (0xb00, "mcycle"), (0xb02, "minstret"),
   (0xc00, "cycle"), (0xc01, "time"), (0xc02, "instret"),
   (0xc20, "vl"), (0xc21, "vtype"), (0xc22, "vlenb"),
   (0xc80, "cycleh"), (0xc81, "timeh"), (0xc82, "instreth"),
   (0xf11, "mvendorid"), (0xf12, "marchid"), (0xf13, "mimpid"), (0xf14, "mhartid")]

def number? (name : String) : Option Nat := (table.find? (·.2 = name)).map (·.1)

def name? (n : Nat) : Option String := (table.find? (·.1 = n)).map (·.2)

def range : ImmRange := ⟨12, true⟩

def parse (text : String) : Except Fault Word :=
  match number? (Text.lower text) with
  | some n => .ok (BitVec.ofNat 32 n)
  | none =>
    match Number.parse text with
    | .error _ => .error (.unknownCsr text)
    | .ok v => do
      Number.check v range
      return Word.ofInt v

/-- The name of a control register, or its number if it has none. -/
def text (n : Word) (base : NumberBase) : String :=
  (name? n.toNat).getD (Number.text n.toNat base)

end Csr

end RvCodec
