import RvCodec.Text.Basic

/-!
# Integers in options

Options take integers as programs write them: in decimal, or in another base behind `0x`, `0o`, `0b`
or a plain leading zero, with single underscores between digits.  This is a wider language than that
of numbers in source text, and it tells a number that is too large from one that is no number.
-/

set_option autoImplicit false

namespace RvCodec.Cli

/-- Why a text is no integer. -/
inductive IntegerFault where
  | malformed
  | outOfRange
  deriving DecidableEq, Repr

def IntegerFault.message : IntegerFault → String
  | malformed => "parse error"
  | outOfRange => "value out of range"

namespace Integer

/-- The base that a numeral announces, and its digits.  A mark needs at least one digit behind it. -/
def splitBase : List Char → Nat × List Char
  | '0' :: mark :: d :: ds =>
    if mark = 'x' ∨ mark = 'X' then (16, d :: ds)
    else if mark = 'o' ∨ mark = 'O' then (8, d :: ds)
    else if mark = 'b' ∨ mark = 'B' then (2, d :: ds)
    else (8, mark :: d :: ds)
  | '0' :: rest => (8, rest)
  | digits => (10, digits)

/-- The value of digits among underscores, as long as it stays below 2^64. -/
def readDigits (base : Nat) : Nat → List Char → Except IntegerFault Nat
  | acc, [] => .ok acc
  | acc, c :: cs =>
    if c = '_' then readDigits base acc cs
    else
      match Text.digitValue? base c with
      | none => .error .malformed
      | some d =>
        if acc * base + d < 1 <<< 64 then readDigits base (acc * base + d) cs
        else .error .outOfRange

/-- Underscores stand between digits only.  `afterDigit` says whether a digit, or the mark of the
base, comes just before. -/
def underscoresBetween (isDigit : Char → Bool) : Bool → List Char → Bool
  | afterDigit, [] => afterDigit
  | afterDigit, c :: cs =>
    if c = '_' then
      match cs with
      | [] => false
      | next :: _ => afterDigit && isDigit next && underscoresBetween isDigit false cs
    else underscoresBetween isDigit true cs

def underscoresOk (cs : List Char) : Bool :=
  let (base, digits) := splitBase cs
  underscoresBetween (fun c => (Text.digitValue? base c).isSome) (base ≠ 10) digits

/-- The value of a numeral without sign. -/
def magnitude (cs : List Char) : Except IntegerFault Nat :=
  if cs.isEmpty then .error .malformed
  else do
    let (base, digits) := splitBase cs
    let n ← readDigits base 0 digits
    if cs.contains '_' && !underscoresOk cs then throw .malformed
    return n

/-- The 64-bit signed integer that a text denotes. -/
def parse (s : String) : Except IntegerFault Int :=
  match s.toList with
  | '-' :: cs => do
    let n ← magnitude cs
    if n ≤ 1 <<< 63 then return -(n : Int) else throw .outOfRange
  | '+' :: cs => do
    let n ← magnitude cs
    if n < 1 <<< 63 then return n else throw .outOfRange
  | cs => do
    let n ← magnitude cs
    if n < 1 <<< 63 then return n else throw .outOfRange

end Integer

end RvCodec.Cli
