import RvCodec.Fault

/-!
# Layouts of immediates

The bits of an immediate are scattered over the instruction word.  A slice says that a range of word
bits holds the immediate's bits from a position on, and a layout is a list of slices.  Packing and
unpacking walk the same list in opposite directions.

An `Immediate` is the main immediate operand of an instruction: where it is kept and which numbers
it may be.
-/

set_option autoImplicit false

namespace RvCodec

namespace Word

/-- All the bits of several words together. -/
def union (ws : List Word) : Word := ws.foldr (· ||| ·) 0

end Word

/-- One piece of an immediate: word bits `top` down to `bottom` hold its bits from `pos` up. -/
structure Slice where
  top : Nat
  bottom : Nat
  pos : Nat
  deriving DecidableEq, Repr

namespace Slice

def range (s : Slice) : BitRange := ⟨s.top, s.bottom⟩

/-- The highest immediate bit of the slice, counted in 64 bits. -/
def reach (s : Slice) : Nat := (((s.pos : Int) + s.top - s.bottom) % (1 <<< 64 : Nat)).toNat

end Slice

/-- Where the bits of an immediate are kept. -/
abbrev Layout := List Slice

namespace Layout

/-- Scatters the bits of an immediate into a word. -/
def pack (l : Layout) (v : Word) : Word :=
  Word.union (l.map fun s => s.range.put (v.down s.pos))

/-- Gathers the bits of an immediate from a word, right-justified. -/
def unpack (l : Layout) (w : Word) : Word :=
  Word.union (l.map fun s => (s.range.get w).up s.pos)

/-- The number of immediate bits that the layout reaches, low bits that are always zero included. -/
def width (l : Layout) : Nat :=
  (l.map fun s => (s.reach + 1) % 1 <<< 64).foldr max 0

/-- The lowest immediate bit of any slice. -/
def low? (l : Layout) : Option Nat := (l.map (·.pos)).min?

/-- What the numbers kept by the layout are multiples of, in 64-bit signed arithmetic. -/
def align (l : Layout) : Int :=
  match l.low? with
  | none => 1
  | some n => if n < 63 then (1 <<< n : Nat) else if n = 63 then -(1 <<< 63 : Nat) else 0

/-! ## The layouts of the instruction formats -/

/-- Twelve bits at the top of the word. -/
def upperTwelve : Layout := [⟨31, 20, 0⟩]
def store : Layout := [⟨31, 25, 5⟩, ⟨11, 7, 0⟩]
def branch : Layout := [⟨31, 31, 12⟩, ⟨30, 25, 5⟩, ⟨11, 8, 1⟩, ⟨7, 7, 11⟩]
def upper : Layout := [⟨31, 12, 0⟩]
def jump : Layout := [⟨31, 31, 20⟩, ⟨30, 21, 1⟩, ⟨20, 20, 11⟩, ⟨19, 12, 12⟩]
/-- Five bits in the place of the first source register. -/
def sourceField : Layout := [⟨19, 15, 0⟩]
/-- The vector type beside a register. -/
def vectorType : Layout := [⟨30, 20, 0⟩]
/-- The vector type beside a small immediate. -/
def vectorTypeImm : Layout := [⟨29, 20, 0⟩]
/-- Six bits of a 16-bit instruction. -/
def short : Layout := [⟨12, 12, 5⟩, ⟨6, 2, 0⟩]
/-- A stack adjustment, in sixteens. -/
def shortStackAdjust : Layout := [⟨12, 12, 9⟩, ⟨6, 6, 4⟩, ⟨5, 5, 6⟩, ⟨4, 3, 7⟩, ⟨2, 2, 5⟩]
/-- The distance of an address from the stack pointer, in fours. -/
def shortStackAddress : Layout := [⟨12, 11, 4⟩, ⟨10, 7, 6⟩, ⟨6, 6, 2⟩, ⟨5, 5, 3⟩]
def shortLoadStack4 : Layout := [⟨12, 12, 5⟩, ⟨6, 4, 2⟩, ⟨3, 2, 6⟩]
def shortLoadStack8 : Layout := [⟨12, 12, 5⟩, ⟨6, 5, 3⟩, ⟨4, 2, 6⟩]
def shortStoreStack4 : Layout := [⟨12, 9, 2⟩, ⟨8, 7, 6⟩]
def shortStoreStack8 : Layout := [⟨12, 10, 3⟩, ⟨9, 7, 6⟩]
def shortMemory4 : Layout := [⟨12, 10, 3⟩, ⟨6, 6, 2⟩, ⟨5, 5, 6⟩]
def shortMemory8 : Layout := [⟨12, 10, 3⟩, ⟨6, 5, 6⟩]
def shortBranch : Layout := [⟨12, 12, 8⟩, ⟨11, 10, 3⟩, ⟨6, 5, 6⟩, ⟨4, 3, 1⟩, ⟨2, 2, 5⟩]
def shortJump : Layout :=
  [⟨12, 12, 11⟩, ⟨11, 11, 4⟩, ⟨10, 9, 8⟩, ⟨8, 8, 10⟩, ⟨7, 7, 6⟩, ⟨6, 6, 7⟩, ⟨5, 3, 1⟩, ⟨2, 2, 5⟩]

end Layout

/-! ## Immediates -/

/-- The main immediate operand of an instruction. -/
structure Immediate where
  layout : Layout
  range : ImmRange
  nonZero : Bool := false
  deriving DecidableEq, Repr

namespace Immediate

def isPresent (f : Immediate) : Bool := !f.layout.isEmpty

/-- Refuses a number that cannot be kept. -/
def check (f : Immediate) (v : Int) : Except Fault Unit :=
  if !f.range.contains v then .error (.immediateOutOfRange v f.range)
  else if v % f.layout.align ≠ 0 then .error (.misalignedOffset v f.layout.align)
  else if f.nonZero && v == 0 then .error .zeroImmediate
  else .ok ()

/-- The word bits of a number that can be kept. -/
def encode (f : Immediate) (v : Int) : Except Fault Word := do
  f.check v
  return f.layout.pack (Word.ofInt v)

def decode (f : Immediate) (w : Word) : Int :=
  let v := f.layout.unpack w
  if f.range.unsigned then v.toNat else signExtend v f.range.bits

/-- The immediate of a 16-bit instruction, as wide as its layout reaches. -/
def ofLayout (l : Layout) (unsigned nonZero : Bool) : Immediate :=
  ⟨l, ⟨l.width, unsigned⟩, nonZero⟩

end Immediate

end RvCodec
