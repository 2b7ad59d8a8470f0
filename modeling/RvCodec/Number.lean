import RvCodec.Fault
import RvCodec.Text.Case
import RvCodec.Text.Class

/-!
# Numbers in source text

A number is written in decimal, in hexadecimal behind `0x` or in binary behind `0b`, with an optional
sign in front and underscores anywhere; it denotes a 64-bit signed integer.  Immediates are written
back in decimal or hexadecimal, as the options choose, in a form that reads back as the same number.
-/

set_option autoImplicit false

namespace RvCodec

namespace Number

/-! ## Reading -/

/-- Whether a minus sign stands in front, and what follows the optional sign. -/
def splitSign : List Char → Bool × List Char
  | '-' :: rest => (true, rest)
  | '+' :: rest => (false, rest)
  | rest => (false, rest)

/-- The base that the opening of a numeral announces, and its digits. -/
def splitBase : List Char → Nat × List Char
  | '0' :: 'x' :: digits => (16, digits)
  | '0' :: 'X' :: digits => (16, digits)
  | '0' :: 'b' :: digits => (2, digits)
  | '0' :: 'B' :: digits => (2, digits)
  | digits => (10, digits)

/-- The value of an unsigned numeral below 2^64. -/
def magnitude? (cs : List Char) : Option Nat :=
  let (base, digits) := splitBase cs
  (Text.readNat? base digits).filter (· < 1 <<< 64)

/-- A number as its characters are read: blanks at the ends and all underscores do not count. -/
def significant (text : String) : List Char :=
  (Text.trimBlank text.toList).filter (· ≠ '_')

/-- The number a text denotes. -/
def parse (text : String) : Except Fault Int :=
  let (negative, digits) := splitSign (significant text)
  match magnitude? digits with
  | none => .error (.badNumber text)
  | some n =>
    if negative then
      if n ≤ 1 <<< 63 then .ok (-(n : Int)) else .error (.numberOutOfRange text)
    else
      if n < 1 <<< 63 then .ok n else .error (.numberOutOfRange text)

/-- Refuses a number that does not fit the field. -/
def check (v : Int) (range : ImmRange) : Except Fault Unit :=
  if range.contains v then .ok () else .error (.immediateOutOfRange v range)

/-- The number a text denotes, if it fits the field. -/
def parseIn (text : String) (range : ImmRange) : Except Fault Int := do
  let v ← parse text
  check v range
  return v

end Number

/-! ## Writing -/

/-- How immediates are written. -/
inductive NumberBase where
  | hex
  | dec
  deriving DecidableEq, Repr

namespace NumberBase

def name : NumberBase → String
  | hex => "hex"
  | dec => "dec"

/-- The base an option names; hexadecimal when it says nothing. -/
def parse (s : String) : Except Failure NumberBase :=
  let t := Text.lower s
  if t = "" ∨ t = "hex" then .ok .hex
  else if t = "dec" then .ok .dec
  else .error (.report s!"unknown number base {Text.quoted s}")

end NumberBase

namespace Number

/-- A number as an immediate is written.  Numbers of one decimal digit read the same in both bases
and are always written in decimal. -/
def text (v : Int) (base : NumberBase) : String :=
  if base = .dec ∨ (-10 < v ∧ v < 10) then Text.decimal v
  else if v < 0 then "-0x" ++ Text.numeral 16 v.natAbs
  else "0x" ++ Text.numeral 16 v.natAbs

end Number

end RvCodec
