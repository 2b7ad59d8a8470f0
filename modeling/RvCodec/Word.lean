import RvCodec.Text.Basic

/-!
# Machine words and their bit ranges

An instruction is a 32-bit word, and everything it says is held in contiguous ranges of its bits.
Reading a range gives its contents right-justified; filling a range puts the low bits of a value
there and leaves every other bit zero.

Bit positions are 64-bit counters: the position above the last one is zero again, and a bit beyond
the word is no bit at all.  For the ranges that instructions use, `bottom ≤ top ≤ 31`, none of this
shows.
-/

set_option autoImplicit false

namespace RvCodec

/-- A machine word. -/
abbrev Word := BitVec 32

namespace Word

/-- The word with the one bit at this position, which is zero beyond bit 31. -/
def bit (n : Nat) : Word := if n < 32 then 1#32 <<< n else 0

/-- A word moved up, with zeros shifted in. -/
def up (w : Word) (n : Nat) : Word := if n < 32 then w <<< n else 0

/-- A word moved down, with zeros shifted in. -/
def down (w : Word) (n : Nat) : Word := if n < 32 then w >>> n else 0

def popcount (w : Word) : Nat := (List.range 32).countP fun i => w.getLsbD i

/-- The word an integer leaves when it is cut to 32 bits. -/
def ofInt (v : Int) : Word := BitVec.ofInt 32 v

end Word

/-- A contiguous range of bits of a word, both ends included. -/
structure BitRange where
  top : Nat
  bottom : Nat
  deriving DecidableEq, Repr

namespace BitRange

/-- The word whose one bits are those of the range. -/
def mask (r : BitRange) : Word := Word.bit ((r.top + 1) % 1 <<< 64) - Word.bit r.bottom

/-- The contents of the range, right-justified. -/
def get (r : BitRange) (w : Word) : Word := (w &&& r.mask).down r.bottom

/-- The low bits of a value, moved into the range. -/
def put (r : BitRange) (v : Word) : Word := v.up r.bottom &&& r.mask

end BitRange

/-! ## Signed readings -/

/-- The low `n` bits of a word as a two's complement number.  Beyond 64 bits nothing is left of the
word, and the number is zero. -/
def signExtend (w : Word) (n : Nat) : Int :=
  if n ≤ 64 then Int.bmod w.toNat (1 <<< n) else 0

/-! ## Words as text -/

namespace Word

/-- Eight hexadecimal digits behind `0x`. -/
def text (w : Word) : String := "0x" ++ Text.paddedNumeral 16 8 w.toNat

/-- Thirty-two binary digits behind `0b`. -/
def bitText (w : Word) : String := "0b" ++ Text.paddedNumeral 2 32 w.toNat

/-- The sixteen binary digits of the lower half behind `0b`. -/
def halfBitText (w : Word) : String := "0b" ++ Text.paddedNumeral 2 16 (w.toNat % 0x10000)

end Word

/-!
## Ranges of immediate fields

An immediate field of `bits` bits holds the numbers from `lo` to `hi`, which depend on whether the
field is read as signed or unsigned.  The bounds are 64-bit integers, so a field wider than 64 bits,
or a signed one of no bits, holds nothing: its upper bound is below its lower bound.
-/

/-- The width and signedness of an immediate field. -/
structure ImmRange where
  bits : Nat
  unsigned : Bool
  deriving DecidableEq, Repr

namespace ImmRange

/-- Half the number of values of a signed field. -/
def half (r : ImmRange) : Int := if 1 ≤ r.bits ∧ r.bits ≤ 64 then (1 <<< (r.bits - 1) : Nat) else 0

def lo (r : ImmRange) : Int := if r.unsigned then 0 else -r.half

def hi (r : ImmRange) : Int :=
  if r.unsigned then (if r.bits < 64 then (1 <<< r.bits : Nat) else 0) - 1 else r.half - 1

def contains (r : ImmRange) (v : Int) : Bool := r.lo ≤ v && v ≤ r.hi

/-- The word for the field's reading. -/
def signedness (r : ImmRange) : String := if r.unsigned then "unsigned" else "signed"

end ImmRange

end RvCodec
