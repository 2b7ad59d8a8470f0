import RvCodec.Number

/-!
# Vector types

The vector configuration instructions take a vector type: the element width, the number of registers
grouped together, and what becomes of the tail and the masked-off elements.  It is written as a list
such as `e32, m2, ta, ma`, of which only the element width is required, or as a plain number.
-/

set_option autoImplicit false

namespace RvCodec

namespace VType

/-! ## Elements of the list -/

/-- The names of the element widths and their codes. -/
def widths : List (Nat × String) := [(0, "e8"), (1, "e16"), (2, "e32"), (3, "e64")]

/-- The names of the register groupings and their codes. -/
def groupings : List (Nat × String) :=
  [(0, "m1"), (1, "m2"), (2, "m4"), (3, "m8"), (5, "mf8"), (6, "mf4"), (7, "mf2")]

/-- One element of a written vector type. -/
inductive Element where
  | width (code : Nat)
  | grouping (code : Nat)
  | tail (agnostic : Bool)
  | mask (agnostic : Bool)
  deriving DecidableEq, Repr

/-- The element that a name in lower case stands for. -/
def element? (name : String) : Option Element :=
  match widths.find? (·.2 = name) with
  | some (code, _) => some (.width code)
  | none =>
    match groupings.find? (·.2 = name) with
    | some (code, _) => some (.grouping code)
    | none =>
      if name = "ta" then some (.tail true)
      else if name = "tu" then some (.tail false)
      else if name = "ma" then some (.mask true)
      else if name = "mu" then some (.mask false)
      else none

/-! ## Reading -/

/-- What the elements read so far have settled. -/
structure Draft where
  width : Option Nat := none
  grouping : Nat := 0
  tail : Option Bool := none
  mask : Option Bool := none
  deriving DecidableEq, Repr

/-- Takes in one more element.  A width or policy is settled once and for all; of several groupings
the last one counts. -/
def Draft.add (d : Draft) : Element → Option Draft
  | .width code => if d.width.isNone then some { d with width := some code } else none
  | .grouping code => some { d with grouping := code }
  | .tail agnostic => if d.tail.isNone then some { d with tail := some agnostic } else none
  | .mask agnostic => if d.mask.isNone then some { d with mask := some agnostic } else none

def readElements : Draft → List String → Except Fault Draft
  | d, [] => .ok d
  | d, text :: rest =>
    match (element? (Text.lower text)).bind d.add with
    | some d' => readElements d' rest
    | none => .error (.badVTypeElement text)

/-- The value of a vector type with this element width. -/
def Draft.value (d : Draft) (width : Nat) : Word :=
  (if d.tail = some true then 0x40 else 0) ||| (if d.mask = some true then 0x80 else 0)
    ||| BitVec.ofNat 32 (width * 8) ||| BitVec.ofNat 32 d.grouping

def parseElements (texts : List String) : Except Fault Word := do
  let d ← readElements {} texts
  match d.width with
  | some width => return d.value width
  | none => throw .missingElementWidth

/-- The vector type that the tokens denote: a single number, or a list of elements. -/
def parse (texts : List String) (bits : Nat) : Except Fault Word :=
  match texts with
  | [] => .error .missingVType
  | [text] =>
    match Number.parse text with
    | .ok v => do
      Number.check v ⟨bits, true⟩
      return Word.ofInt v
    | .error _ => parseElements [text]
  | _ => parseElements texts

/-! ## Writing -/

/-- The elements of a vector type, if every field of it has a name. -/
def elementTexts? (v : Word) : Option (List String) := do
  let n := v.toNat
  if 256 ≤ n then failure
  let (_, width) ← widths.find? (·.1 = n / 8 % 8)
  let (_, grouping) ← groupings.find? (·.1 = n % 8)
  return [width, grouping, if n.testBit 6 then "ta" else "tu", if n.testBit 7 then "ma" else "mu"]

/-- A vector type as text: by its elements when they all have names, and as a number otherwise. -/
def text (v : Word) (base : NumberBase) : String :=
  match elementTexts? v with
  | some parts => ", ".intercalate parts
  | none => Number.text v.toNat base

end VType

end RvCodec
